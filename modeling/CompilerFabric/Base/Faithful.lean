import CompilerFabric.Base.Packing

namespace CompilerFabric.Base.Format

variable {ε α β : Type}

/-- The bytes of a value are never read as another one. Only where a length outgrows its 32-bit prefix
could that happen, so the bytes are taken to be fewer. -/
class Faithful (F : Format ε α) : Prop where
  filled : ∀ x,F.write x ≠ []
  eq_of_read : ∀ x y r r',(F.write x).length<2^32 → F.read (F.write x++r)=.ok (y,r') → y=x ∧ r'=r

variable {F : Format ε α} {G : Format ε β} {x y : α} {r r' : Bytes} {e : ε}

/-- A format that refuses nothing its writer writes. -/
theorem Faithful.of_good (hfilled : ∀ x,F.write x ≠ []) (hgood : ∀ x,F.good x) : F.Faithful where
  filled := hfilled
  eq_of_read x y r r' _ h := by
    rw [F.read_write x r (hgood x)] at h
    cases h
    exact ⟨rfl,rfl⟩

instance : (u8 e).Faithful := .of_good (fun _ => List.ne_nil_of_length_pos (by simp)) fun _ => trivial
instance : (u16 e).Faithful := .of_good (fun _ => List.ne_nil_of_length_pos (by simp)) fun _ => trivial
instance : (u32 e).Faithful := .of_good (fun _ => List.ne_nil_of_length_pos (by simp)) fun _ => trivial
instance : (u64 e).Faithful := .of_good (fun _ => List.ne_nil_of_length_pos (by simp)) fun _ => trivial

instance [hF : F.Faithful] [hG : G.Faithful] : (F.pair G).Faithful where
  filled x h := hF.filled x.1 (List.append_eq_nil_iff.1 h).1
  eq_of_read x y r r' hl h := by
    rw [pair_length] at hl
    have happ : (F.pair G).write x++r=F.write x.1++(G.write x.2++r) := List.append_assoc ..
    rw [happ] at h
    obtain ⟨⟨a,b⟩,ha,hpair⟩ := bind_eq_ok.1 h
    obtain ⟨rfl,rfl⟩ := hF.eq_of_read _ _ _ _ (by omega) ha
    obtain ⟨⟨c,d⟩,hc,hout⟩ := bind_eq_ok.1 hpair
    obtain ⟨rfl,rfl⟩ := hG.eq_of_read _ _ _ _ (by omega) hc
    cases hout
    exact ⟨rfl,rfl⟩

instance Faithful.view (enc : α → β) (dec : β → α) (hdec) (henc) [hG : G.Faithful] :
    (view enc dec hdec henc G).Faithful where
  filled x := hG.filled (enc x)
  eq_of_read x y r r' hl h := by
    obtain ⟨⟨a,b⟩,ha,hout⟩ := bind_eq_ok.1 h
    obtain ⟨rfl,rfl⟩ := hG.eq_of_read _ _ _ _ hl ha
    cases hout
    exact ⟨hdec x,rfl⟩

instance Faithful.lenient (enc : α → β) (dec : β → Except ε α) (hdec) (hgood) [hG : G.Faithful] :
    (lenient enc dec hdec G hgood).Faithful :=
  .of_good (fun x => hG.filled (enc x)) fun _ => trivial

instance Faithful.cast [DecidableEq α] (values : List α) (hall) (hsize) (fallback : α) :
    (cast values hall hsize fallback e).Faithful :=
  .of_good (fun _ => List.ne_nil_of_length_pos (by simp)) fun _ => trivial

instance Faithful.text (bound : Nat) (hbound) : (text bound hbound e).Faithful where
  filled s := List.ne_nil_of_length_pos (by simp)
  eq_of_read s y r r' hl h := by
    rw [text_length] at hl
    have happ : (Format.text bound hbound e).write s++r=
        (u32 e).write (UInt32.ofNat s.length)++(s++r) := List.append_assoc ..
    rw [happ] at h
    simp only [Format.text] at h
    rw [(u32 e).read_write _ _ trivial] at h
    dsimp only [Except.bind] at h
    split_ifs at h
    rw [UInt32.toNat_ofNat_of_lt' (by show s.length<2^32; omega),take_append] at h
    cases h
    exact ⟨rfl,rfl⟩

theorem eq_of_readMany [hF : F.Faithful] {xs ys : List α}
    (hl : (xs.map fun x => (F.write x).length).sum<2^32)
    (h : F.readMany xs.length (xs.flatMap F.write++r)=.ok (ys,r')) : ys=xs ∧ r'=r := by
  induction xs generalizing ys r' with
  | nil =>
    cases h
    exact ⟨rfl,rfl⟩
  | cons x xs ih =>
    simp only [List.map_cons,List.sum_cons] at hl
    rw [List.flatMap_cons,List.append_assoc] at h
    obtain ⟨⟨y,t⟩,hy,htail⟩ := bind_eq_ok.1 h
    obtain ⟨rfl,rfl⟩ := hF.eq_of_read _ _ _ _ (by omega) hy
    obtain ⟨⟨zs,t'⟩,hzs,hout⟩ := bind_eq_ok.1 htail
    obtain ⟨rfl,rfl⟩ := ih (by omega) hzs
    cases hout
    exact ⟨rfl,rfl⟩

/-- No element is written in no bytes, so the bytes bound the count. -/
theorem length_le_written [hF : F.Faithful] (xs : List α) :
    xs.length ≤ (xs.map fun x => (F.write x).length).sum := by
  induction xs with
  | nil => simp
  | cons x xs ih =>
    have hx := List.length_pos_iff.2 (hF.filled x)
    simp only [List.length_cons,List.map_cons,List.sum_cons]
    omega

instance Faithful.list (bound : Nat) (hbound) [hF : F.Faithful] : (list bound hbound e F).Faithful where
  filled xs := List.ne_nil_of_length_pos (by simp)
  eq_of_read xs y r r' hl h := by
    rw [list_length] at hl
    have hcount := @length_le_written _ _ F _ xs
    have happ : (Format.list bound hbound e F).write xs++r=
        (u64 e).write (UInt64.ofNat xs.length)++(xs.flatMap F.write++r) := List.append_assoc ..
    rw [happ] at h
    simp only [Format.list] at h
    rw [(u64 e).read_write _ _ trivial] at h
    dsimp only [Except.bind] at h
    split_ifs at h
    rw [UInt64.toNat_ofNat_of_lt' (by show xs.length<2^64; omega)] at h
    exact eq_of_readMany (by omega) h

instance Faithful.counted (bound : Nat) (hbound) (excess : ε) [hF : F.Faithful] :
    (counted bound hbound excess e F).Faithful where
  filled xs := List.ne_nil_of_length_pos (by simp)
  eq_of_read xs y r r' hl h := by
    simp only [Format.counted] at h hl
    rw [@countedRead_ok _ _ bound hbound] at h
    exact (Faithful.list bound hbound).eq_of_read xs y r r' hl h

/-- Of a record that is written in part, the part that is written comes back. -/
theorem eq_of_readAll_projected {enc : α → β} {dec : β → α} {henc} (hF : F=projected enc dec henc G)
    [hG : G.Faithful] (hl : (F.write x).length<2^32) (h : F.readAll e (F.write x)=.ok y) :
    y=dec (enc x) := by
  subst hF
  obtain ⟨⟨a,b⟩,ha,hout⟩ := bind_eq_ok.1 (readAll_ok.1 h)
  obtain ⟨rfl,rfl⟩ := hG.eq_of_read (enc x) a [] b hl (by rw [List.append_nil]; exact ha)
  cases hout
  rfl

theorem eq_of_readAll [hF : F.Faithful] (hl : (F.write x).length<2^32)
    (h : F.readAll e (F.write x)=.ok y) : y=x :=
  (hF.eq_of_read x y [] [] hl (by rw [List.append_nil]; exact readAll_ok.1 h)).1

end CompilerFabric.Base.Format
