import CompilerFabric.Core.Normal

namespace CompilerFabric

/-! A path spelled from its parts, and when that is normal. -/

section Parts

variable {rel part : Bytes} {parts : List Bytes}

/-- Some bytes, none of them a separator. -/
def IsPart (part : Bytes) : Prop := part ≠ [] ∧ ∀ c ∈ part,isSlash c=false

theorem segments_free (rel : Bytes) : ∀ segment ∈ segments rel,∀ c ∈ segment,isSlash c=false := by
  induction rel with
  | nil => simp [segments]
  | cons c rel ih =>
    by_cases hc : isSlash c=true
    · rw [segments_slash hc]
      intro segment hs
      rcases List.mem_cons.1 hs with rfl | hs
      · simp
      · exact ih segment hs
    · obtain ⟨segment,rest,hs,hcons⟩ := @segments_other rel c (by simpa using hc)
      rw [hs] at ih
      rw [hcons]
      intro x hx
      rcases List.mem_cons.1 hx with rfl | hx
      · intro d hd
        rcases List.mem_cons.1 hd with rfl | hd
        · simpa using hc
        · exact ih segment List.mem_cons_self d hd
      · exact ih x (List.mem_cons_of_mem _ hx)

theorem isPart_of_mem (h : part ∈ pathParts rel) : IsPart part := by
  rw [pathParts_eq,List.mem_filter] at h
  exact ⟨by simpa using h.2,segments_free rel part h.1⟩

theorem pathParts_nil : pathParts []=[] := rfl

/-- A separator ends a part. -/
theorem pathParts_append {s : UInt8} (hs : isSlash s=true) (a b : Bytes) :
    pathParts (a++s::b)=pathParts a++pathParts b := by
  rw [pathParts_eq,pathParts_eq,pathParts_eq,segments,List.splitOnP_append_cons _ _ hs,
    List.filter_append]
  rfl

theorem pathParts_concat (a : Bytes) : pathParts (a++[92])=pathParts a := by
  rw [pathParts_append rfl,pathParts_nil,List.append_nil]

theorem pathParts_part (h : IsPart part) : pathParts part=[part] := by
  rw [pathParts_eq,segments,List.splitOnP_eq_singleton h.2]
  simp [h.1]

theorem joinAscii_cons (part : Bytes) (h : parts ≠ []) :
    joinAscii (part::parts) [92]=part++92::joinAscii parts [92] := by
  rw [joinAscii,List.intercalate_cons_of_ne_nil h,List.append_assoc]
  rfl

theorem pathParts_join (h : ∀ p ∈ parts,IsPart p) : pathParts (joinAscii parts [92])=parts := by
  induction parts with
  | nil => rfl
  | cons part parts ih =>
    have hpart := h part List.mem_cons_self
    cases parts with
    | nil => rw [joinAscii,List.intercalate_singleton,pathParts_part hpart]
    | cons next parts =>
      rw [joinAscii_cons _ (by simp),pathParts_append rfl,pathParts_part hpart,
        ih fun p hp => h p (List.mem_cons_of_mem _ hp)]
      rfl

end Parts

section Tidy

variable {rooted : Bool} {acc parts : List Bytes} {part : Bytes}

/-- Parts as `foldParts` keeps them, the most recent first: behind the `..` a relative path may
begin with, no dot entry. -/
def Tidy (rooted : Bool) (acc : List Bytes) : Prop :=
  ∃ plain k,acc=plain++List.replicate k [46,46] ∧ (∀ p ∈ plain,p ≠ [46] ∧ p ≠ [46,46]) ∧
    (rooted → k=0)

theorem Tidy.keep (h : Tidy rooted acc) (part : Bytes) : Tidy rooted (keepPart rooted acc part) := by
  obtain ⟨plain,k,rfl,hplain,hk⟩ := h
  unfold keepPart
  by_cases h1 : (part==[46])=true
  · rw [if_pos h1]
    exact ⟨plain,k,rfl,hplain,hk⟩
  rw [if_neg h1]
  by_cases h2 : (part==[46,46])=true
  · rw [if_pos h2]
    obtain rfl := eq_of_beq h2
    cases plain with
    | nil =>
      cases k with
      | zero =>
        cases rooted with
        | true => exact ⟨[],0,rfl,nofun,fun _ => rfl⟩
        | false => exact ⟨[],1,rfl,nofun,nofun⟩
      | succ k => exact ⟨[],k+2,rfl,nofun,fun hr => absurd (hk hr) (Nat.succ_ne_zero k)⟩
    | cons last before =>
      have hlast : ¬(last==[46,46])=true := by simpa using (hplain last List.mem_cons_self).2
      show Tidy rooted (if last==[46,46] then _ else before++List.replicate k [46,46])
      rw [if_neg hlast]
      exact ⟨before,k,rfl,fun p hp => hplain p (List.mem_cons_of_mem _ hp),hk⟩
  · rw [if_neg h2]
    refine ⟨part::plain,k,rfl,fun p hp => ?_,hk⟩
    rcases List.mem_cons.1 hp with rfl | hp
    · exact ⟨by simpa using h1,by simpa using h2⟩
    · exact hplain p hp

theorem tidy_foldParts (rooted : Bool) (parts : List Bytes) :
    Tidy rooted (foldParts rooted [] parts) := by
  rw [foldParts_eq]
  have h : Tidy rooted ([] : List Bytes) := ⟨[],0,rfl,nofun,fun _ => rfl⟩
  generalize ([] : List Bytes)=acc at h ⊢
  induction parts generalizing acc with
  | nil => exact h
  | cons part parts ih => exact ih _ (h.keep part)

theorem foldParts_up (j k : Nat) : foldParts false (List.replicate j [46,46])
    (List.replicate k [46,46])=List.replicate (j+k) [46,46] := by
  induction k generalizing j with
  | zero => rfl
  | succ k ih =>
    have hstep : foldParts false (List.replicate j [46,46]) (List.replicate (k+1) [46,46])=
        foldParts false (List.replicate (j+1) [46,46]) (List.replicate k [46,46]) := by
      cases j <;> rfl
    rw [hstep,ih,Nat.add_right_comm]
    rfl

/-- Folding what was kept keeps it. -/
theorem Tidy.fold (h : Tidy rooted acc) : foldParts rooted [] acc.reverse=acc := by
  obtain ⟨plain,k,rfl,hplain,hk⟩ := h
  have hplain' : ∀ p ∈ plain.reverse,p ≠ [46] ∧ p ≠ [46,46] :=
    fun p hp => hplain p (List.mem_reverse.1 hp)
  rw [List.reverse_append,List.reverse_replicate,foldParts_eq,List.foldl_append,← foldParts_eq,
    ← foldParts_eq]
  have hup : foldParts rooted [] (List.replicate k [46,46])=List.replicate k [46,46] := by
    cases rooted with
    | true => rw [hk rfl]; rfl
    | false => simpa using foldParts_up 0 k
  rw [hup,foldParts_plain hplain',List.reverse_reverse]

/-- Parts that do not begin with `..` are without dot entries. -/
theorem Tidy.plain {first : Bytes} {rest : List Bytes} (h : Tidy rooted acc)
    (hacc : acc.reverse=first::rest) (hf : first ≠ [46,46]) :
    ∀ p ∈ acc,p ≠ [46] ∧ p ≠ [46,46] := by
  obtain ⟨plain,k,rfl,hplain,hk⟩ := h
  rw [List.reverse_append,List.reverse_replicate] at hacc
  cases k with
  | zero => simpa using hplain
  | succ k => exact absurd (List.cons.inj hacc).1.symm hf

theorem tidy_of_plain (h : ∀ p ∈ acc,p ≠ [46] ∧ p ≠ [46,46]) : Tidy rooted acc :=
  ⟨acc,0,by simp,h,fun _ => rfl⟩

end Tidy

section Spell

variable {root : Bytes} {rooted trailing : Bool} {parts : List Bytes} {path : Bytes}

/-- A path from its root name, its root directory and its parts. -/
def spell (root : Bytes) (rooted : Bool) (parts : List Bytes) (trailing : Bool) : Bytes :=
  root++((if rooted then [92] else [])++(joinAscii parts [92]++if trailing then [92] else []))

theorem lexicallyNormal_spell (h : path ≠ []) :
    let rel := path.drop (rootNameEnd path)
    let kept := foldParts (rel.head?.any isSlash) [] (pathParts rel)
    let out := spell (backslashed (path.take (rootNameEnd path))) (rel.head?.any isSlash) kept.reverse
      (endsOpen rel kept)
    lexicallyNormal path=if out.isEmpty then [46] else out := by
  unfold lexicallyNormal
  rw [if_neg (by simpa using h)]
  simp only [spell,List.append_assoc]
  rfl

theorem joinAscii_last (h : ∀ p ∈ parts,IsPart p) (hne : parts ≠ []) :
    ∃ front c,joinAscii parts [92]=front++[c] ∧ isSlash c=false := by
  induction parts with
  | nil => exact absurd rfl hne
  | cons part parts ih =>
    cases parts with
    | nil =>
      have hpart := h part List.mem_cons_self
      have hlast := List.dropLast_append_getLast hpart.1
      refine ⟨part.dropLast,part.getLast hpart.1,?_,hpart.2 _ (List.getLast_mem _)⟩
      rw [joinAscii,List.intercalate_singleton,hlast]
    | cons next parts =>
      obtain ⟨front,c,he,hc⟩ := ih (fun p hp => h p (List.mem_cons_of_mem _ hp)) (by simp)
      exact ⟨part++92::front,c,by rw [joinAscii_cons _ (by simp),he]; simp,hc⟩

theorem joinAscii_head (h : ∀ p ∈ parts,IsPart p) (hne : parts ≠ []) :
    ∃ c rest,joinAscii parts [92]=c::rest ∧ isSlash c=false := by
  cases parts with
  | nil => exact absurd rfl hne
  | cons part parts =>
    have hpart := h part List.mem_cons_self
    cases part with
    | nil => exact absurd rfl hpart.1
    | cons c part =>
      have hc := hpart.2 c List.mem_cons_self
      cases parts with
      | nil => exact ⟨c,part,by rw [joinAscii,List.intercalate_singleton],hc⟩
      | cons next parts => exact ⟨c,_,by rw [joinAscii_cons _ (by simp),List.cons_append],hc⟩

/-- The parts are read back from what they are spelled as. -/
theorem pathParts_spell (h : ∀ p ∈ parts,IsPart p) :
    pathParts (spell [] rooted parts trailing)=parts := by
  have hbody : pathParts (joinAscii parts [92]++if trailing then [92] else [])=parts := by
    cases trailing with
    | true => exact (pathParts_concat _).trans (pathParts_join h)
    | false => simpa using pathParts_join h
  cases rooted with
  | true => exact (pathParts_slash (c := 92) rfl _).trans hbody
  | false => exact hbody

/-- A separator is put at the end behind parts that end in a name. -/
def ClosesWell (parts : List Bytes) (trailing : Bool) : Prop :=
  trailing → parts ≠ [] ∧ parts.getLast? ≠ some [46,46]

/-- A text without a root name begins with a separator where it has a root directory. -/
theorem spell_head (h : ∀ p ∈ parts,IsPart p) (hend : ClosesWell parts trailing) (rooted : Bool) :
    (spell [] rooted parts trailing).head?.any isSlash=rooted := by
  cases rooted with
  | true => rfl
  | false =>
    by_cases hnil : parts=[]
    · cases trailing with
      | true => exact absurd hnil (hend rfl).1
      | false => subst hnil; rfl
    · obtain ⟨c,rest,he,hc⟩ := joinAscii_head h hnil
      simp [spell,he,hc]

theorem spell_rooted (root : Bytes) (parts : List Bytes) (trailing : Bool) :
    spell root true parts trailing=root++92::spell [] false parts trailing := rfl

/-- A path that is spelled from tidy parts is normal, where its root name is read as it is. -/
theorem lexicallyNormal_of_spell (hpath : path=spell root rooted parts trailing)
    (hroot : rootNameEnd path=root.length) (hslash : 47 ∉ root) (hparts : ∀ p ∈ parts,IsPart p)
    (htidy : Tidy rooted parts.reverse) (hend : ClosesWell parts trailing) (hne : path ≠ []) :
    lexicallyNormal path=path := by
  have htake : path.take (rootNameEnd path)=root := by rw [hroot,hpath,spell,List.take_left]
  have hdrop : path.drop (rootNameEnd path)=spell [] rooted parts trailing := by
    rw [hroot,hpath,spell,List.drop_left]
    rfl
  have hhead := spell_head hparts hend rooted
  have hfold : foldParts rooted [] parts=parts.reverse := by simpa using htidy.fold
  have hopen : endsOpen (spell [] rooted parts trailing) parts.reverse=trailing := by
    unfold endsOpen
    rw [pathParts_spell hparts]
    by_cases hnil : parts=[]
    · cases trailing with
      | true => exact absurd hnil (hend rfl).1
      | false => subst hnil; simp
    · obtain ⟨front,c,he,hc⟩ := joinAscii_last hparts hnil
      have hlast : (spell [] rooted parts trailing).getLast?.any isSlash=trailing := by
        have htext : spell [] rooted parts trailing=((if rooted then [92] else [])++front)++[c]++
            if trailing then [92] else [] := by simp [spell,he]
        rw [htext]
        cases trailing with
        | true => rw [if_pos rfl,List.getLast?_concat]; rfl
        | false => simpa using hc
      have hdot : parts.getLast? ≠ some [46] := by
        intro hdot
        obtain ⟨plain,k,hacc,hplain,-⟩ := htidy
        have hfirst : (plain++List.replicate k [46,46]).head?=some [46] := by
          rw [← hacc,List.head?_reverse,hdot]
        cases plain with
        | nil => cases k <;> simp [List.replicate_succ] at hfirst
        | cons first plain =>
          exact (hplain first List.mem_cons_self).1 (Option.some.inj hfirst)
      rw [hlast,List.head?_reverse]
      cases trailing with
      | true => simp [hnil,(hend rfl).2]
      | false => by_cases hup : parts.getLast?=some [46,46] <;> simp [hup,hdot]
  have hspell := lexicallyNormal_spell hne
  dsimp only at hspell
  rw [htake,hdrop,hhead,pathParts_spell hparts,hfold,hopen,backslashed_eq hslash,
    List.reverse_reverse,← hpath] at hspell
  rw [hspell,if_neg (by simpa using hne)]

end Spell

section Strip

variable {text : Bytes} {c : UInt8}

theorem stripSeparators_strip (text : Bytes) :
    stripSeparators (stripSeparators text)=stripSeparators text := by
  induction text with
  | nil => rfl
  | cons c rest ih =>
    by_cases h : (3 ≤ rest.length && isSlash c && !(rest.length==2 && rest.head?==some 58))=true
    · rw [stripSeparators,if_pos h,ih]
    · rw [stripSeparators,if_neg h,stripSeparators,if_neg h]

theorem stripSeparators_closed (h : isSlash c=false) : stripSeparators (c::text)=c::text := by
  simp [stripSeparators,h]

/-- One separator at the end goes, but for that of a short text. -/
theorem stripSeparators_open (h : isSlash c=false) : stripSeparators (92::c::text)=
    if 2 ≤ text.length then c::text else 92::c::text := by
  rw [stripSeparators]
  by_cases hl : 2 ≤ text.length
  · have hne : text.length ≠ 1 := by omega
    rw [if_pos hl,if_pos (by simp [hl,hne,isSlash]),stripSeparators_closed h]
  · rw [if_neg hl,if_neg (by simp [hl])]

/-- The text without the separators at its end. -/
def stripped (text : Bytes) : Bytes := (stripSeparators text.reverse).reverse

theorem stripSeparators_ne (h : text ≠ []) : stripSeparators text ≠ [] := by
  induction text with
  | nil => exact absurd rfl h
  | cons c rest ih =>
    rw [stripSeparators]
    split_ifs with hc
    · refine ih ?_
      rintro rfl
      exact absurd hc (by simp)
    · exact List.cons_ne_nil c rest

theorem stripped_ne (h : text ≠ []) : stripped text ≠ [] := by
  rw [stripped,ne_eq,List.reverse_eq_nil_iff]
  exact stripSeparators_ne (by simpa using h)

theorem stripped_closed (h : isSlash c=false) (front : Bytes) : stripped (front++[c])=front++[c] := by
  rw [stripped,List.reverse_concat,stripSeparators_closed h,List.reverse_cons,List.reverse_reverse]

theorem stripped_open (h : isSlash c=false) (front : Bytes) :
    stripped (front++[c]++[92])=if 2 ≤ front.length then front++[c] else front++[c]++[92] := by
  rw [stripped,List.reverse_concat,List.reverse_concat,stripSeparators_open h,List.length_reverse]
  split_ifs <;> simp

theorem stripped_short (h : text.length<3) : stripped (text++[92])=text++[92] := by
  rw [stripped,List.reverse_concat,stripSeparators,if_neg]
  · simp
  · simp only [List.length_reverse,Bool.and_eq_true,decide_eq_true_eq]
    omega

theorem normalizePath_of_normal {path : Bytes} (h : lexicallyNormal (normalizePath path)=
    normalizePath path) : normalizePath (normalizePath path)=normalizePath path := by
  have hs := stripSeparators_strip (lexicallyNormal path).reverse
  unfold normalizePath at h ⊢
  rw [h,List.reverse_reverse,hs]

end Strip

end CompilerFabric
