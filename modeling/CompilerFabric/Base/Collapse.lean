import Mathlib.Algebra.Order.Ring.Nat
import Mathlib.Data.List.Count
import Mathlib.Data.List.Dedup
import Mathlib.Data.List.Destutter
import Mathlib.Data.List.Perm.Basic
import Mathlib.Data.List.Sort
import Mathlib.Data.List.TakeWhile

namespace CompilerFabric.Base

variable {α κ : Type} [DecidableEq α] (key : α → κ) (r : κ → κ → Prop) [DecidableRel r]

/-- A list sorted by a key, with equal neighbours collapsed to one. -/
def collapse (l : List α) : List α :=
  (l.insertionSort fun a b => r (key a) (key b)).destutter (· ≠ ·)

/-- What occurs twice has its key for itself. -/
def Settled (l : List α) : Prop := ∀ a ∈ l,2 ≤ l.count a → ∀ b ∈ l,key b=key a → b=a

variable {key r} {l l' : List α}

theorem Settled.perm (h : Settled key l) (hp : l'.Perm l) : Settled key l' := by
  intro a ha hcount b hb hkey
  exact h a (hp.mem_iff.1 ha) (hp.count_eq a ▸ hcount) b (hp.mem_iff.1 hb) hkey

theorem destutter_cons_cons_eq (a b : α) (l : List α) : (a::b::l).destutter (· ≠ ·)=
    if a=b then (b::l).destutter (· ≠ ·) else a::(b::l).destutter (· ≠ ·) := by
  rw [List.destutter_cons_cons]
  by_cases h : a=b
  · rw [if_neg (not_not.2 h),if_pos h,h]
    rfl
  · rw [if_pos h,if_neg h]
    rfl

theorem mem_destutter {a : α} : a ∈ l.destutter (· ≠ ·) ↔ a ∈ l := by
  induction l with
  | nil => rfl
  | cons b l ih =>
    cases l with
    | nil => rfl
    | cons c l =>
      rw [destutter_cons_cons_eq]
      split_ifs with h
      · rw [ih,h]
        simp
      · rw [List.mem_cons,ih]
        exact List.mem_cons.symm

theorem mem_collapse {a : α} : a ∈ collapse key r l ↔ a ∈ l := by
  rw [collapse,mem_destutter,List.mem_insertionSort]

/-- Between different neighbours a list falls into two that collapse on their own. -/
theorem destutter_append {a : α} (h : ∀ b ∈ l.getLast?,b ≠ a) :
    (l++a::l').destutter (· ≠ ·)=l.destutter (· ≠ ·)++(a::l').destutter (· ≠ ·) := by
  induction l with
  | nil => rfl
  | cons b l ih =>
    cases l with
    | nil =>
      have hb : b ≠ a := h b rfl
      rw [List.singleton_append,destutter_cons_cons_eq,if_neg hb]
      rfl
    | cons c l =>
      have hrest := ih (by simpa only [List.getLast?_cons_cons] using h)
      rw [List.cons_append,List.cons_append,destutter_cons_cons_eq,destutter_cons_cons_eq,
        ← List.cons_append,hrest]
      split_ifs <;> rfl

omit [DecidableRel r] in
/-- In a sorted list whatever stands between two equal entries has their key. -/
theorem Settled.nodup_destutter [Std.Antisymm r] (h : Settled key l)
    (hs : l.Pairwise fun a b => r (key a) (key b)) : (l.destutter (· ≠ ·)).Nodup := by
  induction l with
  | nil => exact List.nodup_nil
  | cons a l ih =>
    cases l with
    | nil => exact List.nodup_singleton a
    | cons b l =>
      have hsrest := (List.pairwise_cons.1 hs).2
      have hrest : Settled key (b::l) := by
        intro c hc hcount d hd hkey
        exact h c (List.mem_cons_of_mem _ hc) (hcount.trans (List.count_le_count_cons ..)) d
          (List.mem_cons_of_mem _ hd) hkey
      rw [destutter_cons_cons_eq]
      split_ifs with hab
      · exact ih hrest hsrest
      · refine List.nodup_cons.2 ⟨fun ha => hab ?_,ih hrest hsrest⟩
        have ha := mem_destutter.1 ha
        have hcount : 2 ≤ (a::b::l).count a := by
          have hpos := List.count_pos_iff.2 ha
          rw [List.count_cons_self]
          omega
        have hle : r (key a) (key b) := (List.pairwise_cons.1 hs).1 b List.mem_cons_self
        have hge : r (key b) (key a) := by
          rcases List.mem_cons.1 ha with rfl | ha
          · exact hle
          · exact (List.pairwise_cons.1 hsrest).1 a ha
        exact (h a List.mem_cons_self hcount b (by simp) (Std.Antisymm.antisymm _ _ hge hle)).symm

variable [Std.Total r] [IsTrans κ r]

omit [DecidableEq α] in
theorem pairwise_insertionSort_key (l : List α) :
    (l.insertionSort fun a b => r (key a) (key b)).Pairwise fun a b => r (key a) (key b) := by
  have : Std.Total fun a b => r (key a) (key b) := ⟨fun a b => Std.Total.total (key a) (key b)⟩
  have : IsTrans α fun a b => r (key a) (key b) := ⟨fun _ _ _ => Trans.trans⟩
  exact List.pairwise_insertionSort _ l

theorem pairwise_collapse (l : List α) :
    (collapse key r l).Pairwise fun a b => r (key a) (key b) :=
  (pairwise_insertionSort_key l).sublist (List.destutter_sublist _ _)

theorem collapse_collapse (l : List α) : collapse key r (collapse key r l)=collapse key r l := by
  have hsort : (collapse key r l).insertionSort (fun a b => r (key a) (key b))=collapse key r l :=
    (pairwise_collapse l).insertionSort_eq
  rw [collapse,hsort]
  exact List.destutter_idem _ _

variable [Std.Antisymm r]

theorem Settled.nodup_collapse (h : Settled key l) : (collapse key r l).Nodup :=
  (h.perm (List.perm_insertionSort _ l)).nodup_destutter (pairwise_insertionSort_key l)

/-- Of a settled list the order makes no difference to the keys. -/
theorem Settled.map_collapse (h : Settled key l) (hp : l'.Perm l) :
    (collapse key r l').map key=(collapse key r l).map key := by
  have hmem : ∀ a,a ∈ collapse key r l' ↔ a ∈ collapse key r l := by
    intro a
    rw [mem_collapse,mem_collapse,hp.mem_iff]
  have hperm := (List.perm_ext_iff_of_nodup (h.perm hp).nodup_collapse h.nodup_collapse).2 hmem
  have hs : ((collapse key r l).map key).Pairwise r := List.pairwise_map.2 (pairwise_collapse l)
  have hs' : ((collapse key r l').map key).Pairwise r := List.pairwise_map.2 (pairwise_collapse l')
  exact (hperm.map key).eq_of_pairwise' hs' hs

omit [DecidableEq α] [Std.Total r] [IsTrans κ r] [Std.Antisymm r] in
/-- An entry is sorted in behind those of a smaller key and in front of the others. -/
theorem orderedInsert_append {a : α} {lower upper : List α} (hl : ∀ b ∈ lower,¬r (key a) (key b))
    (hu : ∀ b ∈ upper.head?,r (key a) (key b)) :
    (lower++upper).orderedInsert (fun a b => r (key a) (key b)) a=lower++a::upper := by
  induction lower with
  | nil =>
    cases upper with
    | nil => rfl
    | cons b upper => exact if_pos (hu b rfl)
  | cons b lower ih =>
    have hb := hl b List.mem_cons_self
    have hrest := ih fun c hc => hl c (List.mem_cons_of_mem _ hc)
    rw [List.cons_append,List.orderedInsert,if_neg hb,hrest]
    rfl

omit [Std.Total r] [IsTrans κ r] [Std.Antisymm r] in
/-- An entry that stands alone adds itself at most. -/
theorem destutter_cons_sublist (a : α) (l : List α) :
    ((a::l).destutter (· ≠ ·)).Sublist (a::l.destutter (· ≠ ·)) := by
  cases l with
  | nil => exact .refl _
  | cons b l =>
    rw [destutter_cons_cons_eq]
    split_ifs
    · exact List.sublist_cons_self ..
    · exact .refl _

omit [Std.Total r] [IsTrans κ r] [Std.Antisymm r] in
theorem destutter_replicate (a : α) (n : Nat) (l : List α) :
    (List.replicate (n+1) a++l).destutter (· ≠ ·)=(a::l).destutter (· ≠ ·) := by
  induction n with
  | zero => rfl
  | succ n ih => rw [List.replicate_succ,List.replicate_succ,List.cons_append,List.cons_append,
      destutter_cons_cons_eq,if_pos rfl,← List.cons_append,← List.replicate_succ,ih]

omit [DecidableEq α] [IsTrans κ r] [Std.Antisymm r] in
/-- Copies of an entry are sorted in where their key begins. -/
theorem sort_replicate {a : α} {l lower upper : List α}
    (h : l.insertionSort (fun a b => r (key a) (key b))=lower++upper)
    (hl : ∀ b ∈ lower,¬r (key a) (key b)) (hu : ∀ b ∈ upper.head?,r (key a) (key b)) (n : Nat) :
    (List.replicate n a++l).insertionSort (fun a b => r (key a) (key b))=
      lower++(List.replicate n a++upper) := by
  induction n with
  | zero => exact h
  | succ n ih =>
    have hrefl : r (key a) (key a) := (Std.Total.total (key a) (key a)).elim id id
    have hhead : ∀ b ∈ (List.replicate n a++upper).head?,r (key a) (key b) := by
      cases n with
      | zero => exact hu
      | succ n =>
        rintro b ⟨rfl⟩
        exact hrefl
    rw [List.replicate_succ,List.cons_append,List.insertionSort_cons,ih,
      orderedInsert_append hl hhead]
    rfl

variable (key r) in
omit [DecidableEq α] [Std.Total r] [IsTrans κ r] [Std.Antisymm r] in
/-- A list sorts into the entries of a smaller key than this one and the others. -/
theorem exists_key_split (a : α) (l : List α) : ∃ lower upper,
    l.insertionSort (fun a b => r (key a) (key b))=lower++upper ∧
    (∀ x ∈ lower,¬r (key a) (key x)) ∧ (∀ x ∈ upper.head?,r (key a) (key x)) ∧ ∀ x ∈ upper,x ∈ l := by
  let sorted := l.insertionSort fun a b => r (key a) (key b)
  refine ⟨sorted.takeWhile fun x => ¬r (key a) (key x),sorted.dropWhile fun x => ¬r (key a) (key x),
    List.takeWhile_append_dropWhile.symm,?_,?_,?_⟩
  · intro x hx
    simpa using List.mem_takeWhile_imp hx
  · intro x hx
    have hdrop := List.head?_dropWhile_not (fun x => ¬r (key a) (key x)) sorted
    rw [Option.mem_def.1 hx] at hdrop
    simpa using hdrop
  · intro x hx
    exact (List.mem_insertionSort _).1 ((List.dropWhile_sublist _).subset hx)

section Meeting

variable {a b : α} {others lower upper : List α}

omit [Std.Total r] [IsTrans κ r] [Std.Antisymm r] in
/-- In front of different entries an entry stands alone. -/
theorem destutter_cons_of_notMem (h : a ∉ l) : (a::l).destutter (· ≠ ·)=a::l.destutter (· ≠ ·) := by
  cases l with
  | nil => rfl
  | cons x l =>
    have hx : a ≠ x := fun hx => h (hx ▸ List.mem_cons_self)
    rw [destutter_cons_cons_eq,if_neg hx]

omit [IsTrans κ r] [Std.Antisymm r] in
/-- Copies that the sort leaves next to each other collapse to one. -/
theorem collapse_together (hs : others.insertionSort (fun a b => r (key a) (key b))=lower++upper)
    (hl : ∀ x ∈ lower,¬r (key a) (key x)) (hu : ∀ x ∈ upper.head?,r (key a) (key x))
    (hkey : key b=key a) (hne : b ≠ a) (n : Nat) : collapse key r (List.replicate (n+1) a++b::others)=
      lower.destutter (· ≠ ·)++a::(b::upper).destutter (· ≠ ·) := by
  have hrefl : r (key a) (key a) := (Std.Total.total (key a) (key a)).elim id id
  have hlast : ∀ x ∈ lower.getLast?,x ≠ a := by
    rintro x hx rfl
    exact hl x (List.mem_of_getLast? hx) hrefl
  have hinsert : (b::others).insertionSort (fun a b => r (key a) (key b))=lower++b::upper := by
    rw [List.insertionSort_cons,hs]
    exact orderedInsert_append (by rwa [hkey]) (by rwa [hkey])
  have hall := sort_replicate hinsert hl (by rintro x ⟨rfl⟩; rwa [hkey]) (n+1)
  rw [collapse,hall,List.replicate_succ,List.cons_append,destutter_append hlast,
    ← List.cons_append,← List.replicate_succ,destutter_replicate,destutter_cons_cons_eq,
    if_neg (Ne.symm hne)]

omit [IsTrans κ r] [Std.Antisymm r] in
/-- A copy that the sort parts from the others by an entry of its key stays beside them. -/
theorem collapse_parted (hs : others.insertionSort (fun a b => r (key a) (key b))=lower++upper)
    (hl : ∀ x ∈ lower,¬r (key a) (key x)) (hu : ∀ x ∈ upper.head?,r (key a) (key x))
    (hkey : key b=key a) (hne : b ≠ a) (hnot : a ∉ upper) (n : Nat) :
    collapse key r (a::b::(List.replicate (n+1) a++others))=
      lower.destutter (· ≠ ·)++a::b::a::upper.destutter (· ≠ ·) := by
  have hrefl : r (key a) (key a) := (Std.Total.total (key a) (key a)).elim id id
  have hlast : ∀ x ∈ lower.getLast?,x ≠ a := by
    rintro x hx rfl
    exact hl x (List.mem_of_getLast? hx) hrefl
  have hhead : ∀ x ∈ (List.replicate (n+1) a++upper).head?,r (key a) (key x) := by
    rintro x ⟨rfl⟩
    exact hrefl
  have hb : (b::(List.replicate (n+1) a++others)).insertionSort (fun a b => r (key a) (key b))=
      lower++b::(List.replicate (n+1) a++upper) := by
    rw [List.insertionSort_cons,sort_replicate hs hl hu (n+1)]
    exact orderedInsert_append (by rwa [hkey]) (by rwa [hkey])
  have ha : (a::b::(List.replicate (n+1) a++others)).insertionSort
      (fun a b => r (key a) (key b))=lower++a::b::(List.replicate (n+1) a++upper) := by
    rw [List.insertionSort_cons,hb]
    exact orderedInsert_append hl (by rintro x ⟨rfl⟩; rwa [hkey])
  have hback : (b::(List.replicate (n+1) a++upper)).destutter (· ≠ ·)=
      b::a::upper.destutter (· ≠ ·) := by
    rw [List.replicate_succ,List.cons_append,destutter_cons_cons_eq,if_neg hne,
      ← List.cons_append,← List.replicate_succ,destutter_replicate,destutter_cons_of_notMem hnot]
  rw [collapse,ha,destutter_append hlast,destutter_cons_cons_eq,if_neg (Ne.symm hne),hback]

end Meeting

omit [IsTrans κ r] [Std.Antisymm r] in
/-- Where an entry that occurs twice shares its key, the order decides whether its copies meet. -/
theorem exists_longer (h : ¬Settled key l) : ∃ l₁ l₂ a rest,l₁.Perm l ∧ l₂.Perm l ∧
    (collapse key r l₁).Sublist rest ∧ (collapse key r l₂).Perm (a::rest) := by
  simp only [Settled,not_forall] at h
  obtain ⟨a,ha,hcount,b,hb,hkey,hne⟩ := h
  obtain ⟨k,hk⟩ : ∃ k,l.count a=k+2 := ⟨l.count a-2,by omega⟩
  let others := (l.filter (· ≠ a)).erase b
  have hb' : b ∈ l.filter (· ≠ a) := List.mem_filter.2 ⟨hb,by simpa using hne⟩
  have hothers : a ∉ others := fun ha => by simpa using (List.mem_filter.1 (List.mem_of_mem_erase ha)).2
  have hperm : (List.replicate (k+2) a++b::others).Perm l := by
    have hsplit := List.filter_append_perm (· = a) l
    rw [List.filter_eq,hk] at hsplit
    refine List.Perm.trans ?_ hsplit
    refine List.Perm.append_left _ ?_
    have herase := (List.perm_cons_erase hb').symm
    simpa [others] using herase
  obtain ⟨lower,upper,hsorted,hlower,hupper,hmem⟩ := exists_key_split key r a others
  refine ⟨_,a::b::(List.replicate (k+1) a++others),a,
    lower.destutter (· ≠ ·)++a::b::upper.destutter (· ≠ ·),hperm,?_,?_,?_⟩
  · refine List.Perm.trans ?_ hperm
    change List.Perm _ (a::(List.replicate (k+1) a++b::others))
    exact List.Perm.cons a List.perm_middle.symm
  · rw [collapse_together hsorted hlower hupper hkey hne]
    exact ((destutter_cons_sublist b upper).cons_cons a).append_left _
  · rw [collapse_parted hsorted hlower hupper hkey hne fun ha => hothers (hmem a ha)]
    have hswap : (a::b::a::upper.destutter (· ≠ ·)).Perm (a::a::b::upper.destutter (· ≠ ·)) :=
      (List.Perm.swap a b _).cons a
    exact (hswap.append_left _).trans List.perm_middle

omit [DecidableEq α] in
/-- A permutation of an image is the image of a permutation. -/
theorem exists_perm_map {β : Type} {f : α → β} {ns : List β} (h : ns.Perm (l.map f)) :
    ∃ l' : List α,l'.Perm l ∧ l'.map f=ns := by
  have hmap : List.Forall₂ (fun n a => f a=n) (l.map f) l :=
    List.forall₂_map_left_iff.2 (List.forall₂_same.2 fun _ _ => rfl)
  obtain ⟨l',hl',hp⟩ := List.perm_comp_forall₂ h hmap
  refine ⟨l',hp,?_⟩
  clear h hp
  induction hl' with
  | nil => rfl
  | cons hn _ ih => rw [List.map_cons,hn,ih]

end CompilerFabric.Base
