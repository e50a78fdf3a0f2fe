import CompilerFabric.Base.Format
import Mathlib.Data.List.Flatten

namespace CompilerFabric.Base.Format

variable {ε α β : Type}

/-- Which inputs of a reader are spelled as its writer spells: `plain` looks at the bytes in front,
and among the inputs that are read at all it singles out those the writer reproduces. A value
never takes more bytes than it was read from. -/
class Spelled (F : Format ε α) where
  plain : Bytes → Prop
  good_of_ok : ∀ b x r,F.read b=.ok (x,r) → F.good x
  split : ∀ b x r,F.read b=.ok (x,r) →
    ∃ c,b=c++r ∧ (F.write x).length ≤ c.length ∧ (F.write x=c ↔ plain b)

/-- A reader with one spelling only. -/
theorem exact_split {F : Format ε α} {b r : Bytes} {x : α} (h : b=F.write x++r) :
    ∃ c,b=c++r ∧ (F.write x).length ≤ c.length ∧ (F.write x=c ↔ True) :=
  ⟨F.write x,h,Nat.le_refl _,by simp⟩

/-- The whole input is reproduced exactly when it is plain. -/
theorem Spelled.write_eq_iff {F : Format ε α} [hF : F.Spelled] {e : ε} {b : Bytes} {x : α}
    (h : F.readAll e b=.ok x) : F.write x=b ↔ hF.plain b := by
  obtain ⟨c,hc,_,hiff⟩ := hF.split b x [] (readAll_ok.1 h)
  rw [List.append_nil] at hc
  rw [hc] at hiff ⊢
  exact hiff

section Words

variable {e : ε}

theorem word_read {k : Nat} {toNat : α → Nat} {ofNat : Nat → α} {hlt} {hinv} {b r : Bytes} {x : α}
    (hval : ∀ n,n<256^k → toNat (ofNat n)=n)
    (h : (word k toNat ofNat hlt hinv e).read b=.ok (x,r)) :
    b=(word k toNat ofNat hlt hinv e).write x++r := by
  simp only [word] at h
  cases ht : take k e b with
  | error e' => simp [ht,Except.map] at h
  | ok v =>
    obtain ⟨v,r'⟩ := v
    obtain ⟨rfl,rfl⟩ := take_ok ht
    simp only [ht,Except.map,Except.ok.injEq,Prod.mk.injEq] at h
    obtain ⟨rfl,rfl⟩ := h
    simp only [word,hval _ (leValue_lt v),leBytes_leValue]

instance : (u8 e).Spelled where
  plain _ := True
  good_of_ok _ _ _ _ := trivial
  split _ _ _ h := exact_split (word_read (fun _ hn => UInt8.toNat_ofNat_of_lt' hn) h)

instance : (u16 e).Spelled where
  plain _ := True
  good_of_ok _ _ _ _ := trivial
  split _ _ _ h := exact_split (word_read (fun _ hn => UInt16.toNat_ofNat_of_lt' hn) h)

instance : (u32 e).Spelled where
  plain _ := True
  good_of_ok _ _ _ _ := trivial
  split _ _ _ h := exact_split (word_read (fun _ hn => UInt32.toNat_ofNat_of_lt' hn) h)

instance : (u64 e).Spelled where
  plain _ := True
  good_of_ok _ _ _ _ := trivial
  split _ _ _ h := exact_split (word_read (fun _ hn => UInt64.toNat_ofNat_of_lt' hn) h)

instance : (i32 e).Spelled where
  plain _ := True
  good_of_ok _ _ _ _ := trivial
  split _ _ _ h := exact_split (word_read (fun _ hn => by
    simpa using UInt32.toNat_ofNat_of_lt' hn) h)

end Words

/-- Two halves that are no longer than what they were read from reproduce it together only if each
does. -/
theorem append_eq_iff {w v c d : Bytes} (hw : w.length ≤ c.length) (hv : v.length ≤ d.length) :
    w++v=c++d ↔ w=c ∧ v=d := by
  constructor
  · intro h
    have hl := congrArg List.length h
    simp only [List.length_append] at hl
    exact List.append_inj h (by omega)
  · rintro ⟨rfl,rfl⟩
    rfl

instance (F : Format ε α) (G : Format ε β) [hF : F.Spelled] [hG : G.Spelled] : (F.pair G).Spelled where
  plain b := hF.plain b ∧ ∀ x r,F.read b=.ok (x,r) → hG.plain r
  good_of_ok b x r h := by
    obtain ⟨⟨x₁,r₁⟩,h₁,h⟩ := bind_eq_ok.1 h
    obtain ⟨⟨x₂,r₂⟩,h₂,h⟩ := bind_eq_ok.1 h
    cases h
    exact ⟨hF.good_of_ok _ _ _ h₁,hG.good_of_ok _ _ _ h₂⟩
  split b x r h := by
    obtain ⟨⟨x₁,r₁⟩,h₁,h⟩ := bind_eq_ok.1 h
    obtain ⟨⟨x₂,r₂⟩,h₂,h⟩ := bind_eq_ok.1 h
    cases h
    obtain ⟨c₁,hc₁,hl₁,hp₁⟩ := hF.split _ _ _ h₁
    obtain ⟨c₂,hc₂,hl₂,hp₂⟩ := hG.split _ _ _ h₂
    refine ⟨c₁++c₂,by rw [hc₁,hc₂,List.append_assoc],by simpa [pair] using Nat.add_le_add hl₁ hl₂,?_⟩
    rw [show (F.pair G).write (x₁,x₂)=F.write x₁++G.write x₂ from rfl,append_eq_iff hl₁ hl₂,hp₁,hp₂]
    refine and_congr_right fun _ => ⟨fun hp y s hy => ?_,fun hp => hp _ _ h₁⟩
    rw [h₁] at hy
    cases hy
    exact hp

instance Spelled.view (enc : α → β) (dec : β → α) (hdec) (henc) (F : Format ε β) [hF : F.Spelled] :
    (view enc dec hdec henc F).Spelled where
  plain := hF.plain
  good_of_ok b x r h := by
    obtain ⟨⟨y,r'⟩,hy,h⟩ := bind_eq_ok.1 h
    cases h
    show F.good (enc (dec y))
    rw [henc]
    exact hF.good_of_ok _ _ _ hy
  split b x r h := by
    obtain ⟨⟨y,r'⟩,hy,h⟩ := bind_eq_ok.1 h
    cases h
    simpa only [Format.view,henc] using hF.split _ _ _ hy

instance (P : α → Prop) (enc : α → β) (dec : β → Except ε α) (hdec) (henc) (F : Format ε β)
    [hF : F.Spelled] : (refine P enc dec hdec henc F).Spelled where
  plain := hF.plain
  good_of_ok b x r h := by
    obtain ⟨⟨y,r'⟩,hy,h⟩ := bind_eq_ok.1 h
    obtain ⟨x',hx,h⟩ := bind_eq_ok.1 h
    cases h
    obtain ⟨hp,rfl⟩ := henc _ _ hx
    exact ⟨hp,hF.good_of_ok _ _ _ hy⟩
  split b x r h := by
    obtain ⟨⟨y,r'⟩,hy,h⟩ := bind_eq_ok.1 h
    obtain ⟨x',hx,h⟩ := bind_eq_ok.1 h
    cases h
    obtain ⟨_,rfl⟩ := henc _ _ hx
    exact hF.split _ _ _ hy

instance [DecidableEq α] (values : List α) (hall) (hnd) (hsize) (e : ε) :
    (enumeration values hall hnd hsize e).Spelled :=
  inferInstanceAs (refine _ _ _ _ _ (u8 e)).Spelled

instance (p : α → Bool) (e : ε) (F : Format ε α) [hF : F.Spelled] : (check p e F).Spelled where
  plain := hF.plain
  good_of_ok b x r h := by
    obtain ⟨⟨y,r'⟩,hy,h⟩ := bind_eq_ok.1 h
    dsimp only at h
    split_ifs at h with hp
    cases h
    exact ⟨hF.good_of_ok _ _ _ hy,hp⟩
  split b x r h := by
    obtain ⟨⟨y,r'⟩,hy,h⟩ := bind_eq_ok.1 h
    dsimp only at h
    split_ifs at h with hp
    cases h
    exact hF.split _ _ _ hy

instance Spelled.expect (v : α) [DecidableEq α] (e : ε) (F : Format ε α) (hv) [hF : F.Spelled] :
    (expect v e F hv).Spelled where
  plain := hF.plain
  good_of_ok _ _ _ _ := trivial
  split b x r h := by
    obtain ⟨⟨y,r'⟩,hy,h⟩ := bind_eq_ok.1 h
    dsimp only at h
    split_ifs at h with hp
    cases h
    subst hp
    exact hF.split _ _ _ hy

theorem text_read {bound : Nat} {hbound} {e : ε} {b s r : Bytes}
    (h : (text bound hbound e).read b=.ok (s,r)) :
    b=(text bound hbound e).write s++r ∧ s.length ≤ bound := by
  obtain ⟨⟨n,t⟩,hn,h⟩ := bind_eq_ok.1 h
  dsimp only at h
  split_ifs at h with hb
  obtain ⟨rfl,hl⟩ := take_ok h
  have hw := word_read (fun _ hn => UInt32.toNat_ofNat_of_lt' hn) hn
  refine ⟨?_,by omega⟩
  rw [hw]
  simp [text,hl,u32]

instance (bound : Nat) (hbound) (e : ε) : (text bound hbound e).Spelled where
  plain _ := True
  good_of_ok _ _ _ h := (text_read h).2
  split _ _ _ h := exact_split (text_read h).1

section Lists

variable (F : Format ε α) [hF : F.Spelled]

/-- Each of the next `n` elements is plain where the one before it ends. -/
def PlainMany : Nat → Bytes → Prop
  | 0,_ => True
  | n+1,b => hF.plain b ∧ ∀ x r,F.read b=.ok (x,r) → PlainMany n r

theorem readMany_split {n : Nat} {b r : Bytes} {xs : List α} (h : F.readMany n b=.ok (xs,r)) :
    ∃ c,b=c++r ∧ (xs.flatMap F.write).length ≤ c.length ∧
      (xs.flatMap F.write=c ↔ F.PlainMany n b) := by
  induction n generalizing b xs with
  | zero =>
    cases h
    exact ⟨[],rfl,by simp,by simp [PlainMany]⟩
  | succ n ih =>
    obtain ⟨⟨x,t⟩,hx,h⟩ := bind_eq_ok.1 h
    obtain ⟨⟨ys,t'⟩,hys,h⟩ := bind_eq_ok.1 h
    cases h
    obtain ⟨c₁,hc₁,hl₁,hp₁⟩ := hF.split _ _ _ hx
    obtain ⟨c₂,hc₂,hl₂,hp₂⟩ := ih hys
    refine ⟨c₁++c₂,by rw [hc₁,hc₂,List.append_assoc],?_,?_⟩
    · rw [List.flatMap_cons,List.length_append,List.length_append]
      omega
    · rw [List.flatMap_cons,append_eq_iff hl₁ hl₂,hp₁,hp₂,PlainMany]
      refine and_congr_right fun _ => ⟨fun hp y s hy => ?_,fun hp => hp _ _ hx⟩
      rw [hx] at hy
      cases hy
      exact hp

theorem readMany_good {n : Nat} {b r : Bytes} {xs : List α} (h : F.readMany n b=.ok (xs,r)) :
    ∀ x ∈ xs,F.good x := by
  induction n generalizing b xs with
  | zero =>
    cases h
    simp
  | succ n ih =>
    obtain ⟨⟨x,t⟩,hx,h⟩ := bind_eq_ok.1 h
    obtain ⟨⟨ys,t'⟩,hys,h⟩ := bind_eq_ok.1 h
    cases h
    simpa using ⟨hF.good_of_ok _ _ _ hx,ih hys⟩

variable {bound : Nat} {hbound : bound<2^64} {e : ε}

omit hF in
/-- What a counted sequence was read from: its count, then its elements. -/
theorem list_read {b r : Bytes} {xs : List α} (h : (list bound hbound e F).read b=.ok (xs,r)) :
    ∃ t,b=(u64 e).write (UInt64.ofNat xs.length)++t ∧ F.readMany xs.length t=.ok (xs,r) ∧
      xs.length ≤ bound := by
  obtain ⟨⟨n,t⟩,hn,h⟩ := bind_eq_ok.1 h
  dsimp only at h
  split_ifs at h with hb
  have hl := F.readMany_length h
  have hw := word_read (fun _ hn => UInt64.toNat_ofNat_of_lt' hn) hn
  refine ⟨t,?_,by rwa [hl],by omega⟩
  rw [hw]
  simp [hl,u64]

instance : (list bound hbound e F).Spelled where
  plain b := ∀ n r,(u64 e).read b=.ok (n,r) → F.PlainMany n.toNat r
  good_of_ok b xs r h := by
    obtain ⟨t,_,ht,hb⟩ := list_read F h
    exact ⟨hb,F.readMany_good ht⟩
  split b xs r h := by
    obtain ⟨t,rfl,ht,hb⟩ := list_read F h
    obtain ⟨c,rfl,hl,hp⟩ := F.readMany_split ht
    have hn : (UInt64.ofNat xs.length).toNat=xs.length :=
      UInt64.toNat_ofNat_of_lt (Nat.lt_of_le_of_lt hb hbound)
    refine ⟨(u64 e).write (UInt64.ofNat xs.length)++c,by simp,?_,?_⟩
    · simpa [list] using hl
    · rw [show (list bound hbound e F).write xs=
        (u64 e).write (UInt64.ofNat xs.length)++xs.flatMap F.write from rfl,
        List.append_cancel_left_eq,hp]
      simp [(u64 e).read_write _ _ trivial,hn]

end Lists

instance (bound : Nat) (hbound) (e trailing : ε) (F : Format ε α) [hF : F.Spelled] :
    (blob bound hbound e trailing F).Spelled where
  plain b := ∀ t r,(text bound hbound e).read b=.ok (t,r) → hF.plain t
  good_of_ok b x r h := by
    obtain ⟨⟨t,r'⟩,ht,h⟩ := bind_eq_ok.1 h
    obtain ⟨y,hy,h⟩ := bind_eq_ok.1 h
    cases h
    obtain ⟨c,hc,hl,_⟩ := hF.split _ _ _ (readAll_ok.1 hy)
    rw [List.append_nil] at hc
    subst hc
    exact ⟨hF.good_of_ok _ _ _ (readAll_ok.1 hy),Nat.le_trans hl (text_read ht).2⟩
  split b x r h := by
    obtain ⟨⟨t,r'⟩,ht,h⟩ := bind_eq_ok.1 h
    obtain ⟨y,hy,h⟩ := bind_eq_ok.1 h
    cases h
    obtain ⟨c,hc,hl,hp⟩ := hF.split _ _ _ (readAll_ok.1 hy)
    rw [List.append_nil] at hc
    subst hc
    obtain ⟨hb,hlt⟩ := text_read ht
    refine ⟨_,hb,by simpa [blob,text,u32,word] using hl,?_⟩
    have hwrite : (text bound hbound e).write (F.write x)=(text bound hbound e).write t ↔
        F.write x=t := by
      refine ⟨fun h => ?_,fun h => by rw [h]⟩
      exact ((append_eq_iff (w := (u32 e).write _) (c := (u32 e).write _) (by simp [u32,word]) hl).1 h).2
    refine hwrite.trans (hp.trans ⟨fun hp s q hs => ?_,fun hp => hp _ _ ht⟩)
    rw [ht] at hs
    cases hs
    exact hp

section Keyed

variable {κ : Type} [DecidableEq κ] {bound : Nat} {hbound : bound<2^64} {e : ε} {F : Format ε α}
  [hF : F.Spelled] {key : α → κ} {hkey} {P : β → Prop} {enc : β → List α} {dec : List α → β}
  {hdec : ∀ x,P x → dec (enc x)=x} {hP : ∀ ys,P (dec ys)} {hnd : ∀ x,P x → ((enc x).map key).Nodup}
  {hfind : ∀ ys,∀ a ∈ enc (dec ys),ys.find? (key ·=key a)=some a}

theorem enc_subperm (hP : ∀ ys,P (dec ys)) (hnd : ∀ x,P x → ((enc x).map key).Nodup)
    (hfind : ∀ ys,∀ a ∈ enc (dec ys),ys.find? (key ·=key a)=some a) (ys : List α) :
    (enc (dec ys)).Subperm ys :=
  (List.Nodup.of_map key (hnd _ (hP ys))).subperm fun a ha =>
    List.mem_of_find?_eq_some (hfind ys a ha)

theorem keyed_good {b r : Bytes} {x : β}
    (h : (keyed bound hbound e F key hkey P enc dec hdec hP hnd hfind).read b=.ok (x,r)) :
    (keyed bound hbound e F key hkey P enc dec hdec hP hnd hfind).good x := by
  obtain ⟨⟨ys,r'⟩,hy,h⟩ := bind_eq_ok.1 h
  cases h
  have hg : (list bound hbound e F).good ys := Spelled.good_of_ok _ _ _ hy
  have hsub := enc_subperm hP hnd hfind ys
  exact ⟨hP ys,Nat.le_trans hsub.length_le hg.1,fun a ha => hg.2 a (hsub.subset ha)⟩

theorem flatMap_length_le {xs ys : List α} (h : xs.Subperm ys) (f : α → Bytes) :
    (xs.flatMap f).length ≤ (ys.flatMap f).length := by
  obtain ⟨zs,hperm,hsub⟩ := h
  have hp := (hperm.flatMap_right f).length_eq
  have hs := (hsub.flatMap f).length_le
  omega

/-- A map is reproduced when its values are and stand in the order the writer gives them. -/
theorem keyed_split {b r : Bytes} {x : β}
    (h : (keyed bound hbound e F key hkey P enc dec hdec hP hnd hfind).read b=.ok (x,r)) :
    ∃ ys c,(list bound hbound e F).read b=.ok (ys,r) ∧ b=c++r ∧
      ((list bound hbound e F).write (enc x)).length ≤ c.length ∧
      ((list bound hbound e F).write (enc x)=c ↔
        Spelled.plain (list bound hbound e F) b ∧ enc (dec ys)=ys) := by
  have hg := keyed_good h
  obtain ⟨⟨ys,r'⟩,hy,h⟩ := bind_eq_ok.1 h
  cases h
  obtain ⟨c,rfl,hl,hp⟩ := Spelled.split (F := list bound hbound e F) _ _ _ hy
  have hsub := enc_subperm hP hnd hfind ys
  have hlen : ((list bound hbound e F).write (enc (dec ys))).length ≤
      ((list bound hbound e F).write ys).length := by
    simpa [list,u64,word] using flatMap_length_le hsub F.write
  refine ⟨ys,c,hy,rfl,Nat.le_trans hlen hl,?_⟩
  constructor
  · intro hw
    have hread := (list bound hbound e F).read_write _ r hg.2
    rw [hw,hy] at hread
    have henc : enc (dec ys)=ys := by
      simp only [Except.ok.injEq,Prod.mk.injEq,and_true] at hread
      exact hread.symm
    rw [henc] at hw
    exact ⟨hp.1 hw,henc⟩
  · rintro ⟨hplain,henc⟩
    rw [henc]
    exact hp.2 hplain

end Keyed

end CompilerFabric.Base.Format
