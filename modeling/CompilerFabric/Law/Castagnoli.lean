import CompilerFabric.Base.Crc
import CompilerFabric.Core.Checksum

namespace CompilerFabric

open Base (Bytes)
open Base.Crc (run feed pack)

/-! The table-driven checksum against the bit by bit one. -/

/-- The bits of a byte in the order in which they are taken: the least significant one first. -/
def byteBits (value : UInt8) : List Bool := (List.range 8).map value.toNat.testBit

def bitsOf (bytes : Bytes) : List Bool := bytes.flatMap byteBits

/-- CRC-32C bit by bit: the reflected Castagnoli polynomial, all ones at the start, and the
complement at the end. -/
def castagnoli (bytes : Bytes) : BitVec 32 :=
  ~~~run 0x82F63B78#32 (BitVec.allOnes 32) (bitsOf bytes)

/-- The bits are the same but for `width` of them from the `k`-th on. -/
def DifferWithin (width k : Nat) (xs ys : Bytes) : Prop :=
  ∀ i,i<k ∨ k+width ≤ i → (bitsOf xs)[i]?=(bitsOf ys)[i]?

section Register

theorem feed_toNat (r : BitVec 32) : (feed 0x82F63B78#32 r false).toNat=
    if r.toNat&&&1=1 then r.toNat>>>1^^^0x82F63B78 else r.toNat>>>1 := by
  have hlow : r.getLsbD 0=true ↔ r.toNat&&&1=1 := by
    rw [Nat.and_one_is_mod,← BitVec.testBit_toNat,Nat.testBit_zero,decide_eq_true_iff]
  rw [feed,Bool.xor_false]
  by_cases h : r.getLsbD 0=true
  · rw [if_pos h,if_pos (hlow.1 h)]
    rfl
  · rw [if_neg h,if_neg fun hn => h (hlow.2 hn)]
    rfl

/-- The shifts that make a table entry take clear bits. -/
theorem crc32cBits_toNat (n : Nat) (r : BitVec 32) :
    crc32cBits n r.toNat=(run 0x82F63B78#32 r (List.replicate n false)).toNat := by
  induction n generalizing r with
  | zero => rfl
  | succ n ih =>
    rw [crc32cBits,← feed_toNat,ih]
    rfl

theorem pack_byteBits (value : UInt8) : (pack (byteBits value) : BitVec 32).toNat=value.toNat := by
  have hfit : (byteBits value).length ≤ 32 := by simp [byteBits]
  apply Nat.eq_of_testBit_eq
  intro i
  rw [BitVec.testBit_toNat,Base.Crc.getLsbD_pack hfit]
  by_cases hi : i<8
  · simp [byteBits,hi]
  · have hout : value.toNat<2^i := Nat.lt_of_lt_of_le value.toNat_lt
      (Nat.pow_le_pow_right (by decide) (by omega))
    rw [Nat.testBit_lt_two_pow hout]
    simp [byteBits,hi]

theorem split_low (x : BitVec 32) : x=(x&&&0xFF#32)^^^(x>>>8)<<<8 := by
  apply BitVec.eq_of_getLsbD_eq
  intro i hi
  have hmask : (0xFF#32).getLsbD i=decide (i<8) := by
    rw [← BitVec.testBit_toNat,show (0xFF#32).toNat=2^8-1 from rfl,Nat.testBit_two_pow_sub_one]
  rw [BitVec.getLsbD_xor,BitVec.getLsbD_and,BitVec.getLsbD_shiftLeft,BitVec.getLsbD_ushiftRight,hmask]
  by_cases hlow : i<8
  · simp [hlow]
  · have hback : 8+(i-8)=i := by omega
    simp [hlow,hi,hback]

/-- A turn through the table takes the bits of a byte: the table has what becomes of the low byte,
and the rest of the register only moves down. -/
theorem crc32cStep_toNat (r : BitVec 32) (value : UInt8) :
    crc32cStep r.toNat value=(run 0x82F63B78#32 r (byteBits value)).toNat := by
  have hlen : (byteBits value).length=8 := by simp [byteBits]
  have hpacked := Base.Crc.run_pack 0x82F63B78#32 (by omega : (byteBits value).length ≤ 32) r
  rw [hlen] at hpacked
  have hx : (r^^^pack (byteBits value)).toNat=r.toNat^^^value.toNat := by
    rw [BitVec.toNat_xor,pack_byteBits]
  generalize r^^^pack (byteBits value)=x at hpacked hx
  have hhigh : x.toNat>>>8=r.toNat>>>8 := by
    have hbyte : value.toNat>>>8=0 := by
      have hlt := value.toNat_lt
      rw [Nat.shiftRight_eq_div_pow]
      omega
    rw [hx,Nat.shiftRight_xor_distrib,hbyte,Nat.xor_zero]
  have hsplit := Base.Crc.run_xor 0x82F63B78#32 (x&&&0xFF#32) ((x>>>8)<<<8)
    (rfl : (List.replicate 8 false).length=(List.replicate 8 false).length)
  have hdown : run 0x82F63B78#32 ((x>>>8)<<<8) (List.replicate 8 false)=x>>>8 := by
    apply Base.Crc.run_shiftLeft
    intro i hi
    rw [BitVec.getLsbD_ushiftRight]
    exact BitVec.getLsbD_of_ge x (8+i) (by omega)
  rw [hdown,← split_low] at hsplit
  rw [hpacked,crc32cStep,crc32cTable,← hx,← hhigh]
  show crc32cBits 8 (x&&&0xFF#32).toNat^^^(x>>>8).toNat=_
  rw [crc32cBits_toNat,← BitVec.toNat_xor,hsplit]
  rfl

theorem foldl_crc32cStep_toNat (r : BitVec 32) (bytes : Bytes) :
    bytes.foldl crc32cStep r.toNat=(run 0x82F63B78#32 r (bitsOf bytes)).toNat := by
  induction bytes generalizing r with
  | nil => rfl
  | cons value bytes ih =>
    rw [List.foldl_cons,crc32cStep_toNat,ih]
    exact congrArg BitVec.toNat (Base.Crc.run_append r (byteBits value) (bitsOf bytes)).symm

theorem crc32c_toBitVec (bytes : Bytes) : (crc32c bytes).toBitVec=castagnoli bytes := by
  have hfold := foldl_crc32cStep_toNat (BitVec.allOnes 32) bytes
  rw [show (BitVec.allOnes 32).toNat=0xFFFFFFFF from rfl] at hfold
  rw [crc32c_eq,hfold,castagnoli,← BitVec.xor_allOnes]
  generalize run 0x82F63B78#32 (BitVec.allOnes 32) (bitsOf bytes)=x
  show BitVec.ofNat 32 (x.toNat^^^(BitVec.allOnes 32).toNat)=_
  rw [← BitVec.toNat_xor,BitVec.ofNat_toNat,BitVec.setWidth_eq]

end Register

section Burst

variable {xs ys : Bytes}

theorem byteBits_inj {a b : UInt8} (h : byteBits a=byteBits b) : a=b := by
  have hpacked : (pack (byteBits a) : BitVec 32).toNat=(pack (byteBits b) : BitVec 32).toNat := by
    rw [h]
  rw [pack_byteBits,pack_byteBits] at hpacked
  exact UInt8.toNat.inj hpacked

theorem bitsOf_inj (h : bitsOf xs=bitsOf ys) : xs=ys := by
  induction xs generalizing ys with
  | nil =>
    cases ys with
    | nil => rfl
    | cons b ys => cases h
  | cons a xs ih =>
    cases ys with
    | nil => cases h
    | cons b ys =>
      have hlen : (byteBits a).length=(byteBits b).length := by simp [byteBits]
      obtain ⟨hbyte,hrest⟩ := List.append_inj h hlen
      rw [byteBits_inj hbyte,ih hrest]

theorem bitsOf_length (bytes : Bytes) : (bitsOf bytes).length=8*bytes.length := by
  induction bytes with
  | nil => rfl
  | cons value bytes ih =>
    have hcons : bitsOf (value::bytes)=byteBits value++bitsOf bytes := rfl
    rw [hcons,List.length_append,ih,List.length_cons]
    simp [byteBits]
    omega

/-- The two strings are the same in front of the window and behind it. -/
theorem castagnoli_ne {k : Nat} (hl : xs.length=ys.length) (hne : xs ≠ ys)
    (h : DifferWithin 32 k xs ys) : castagnoli xs ≠ castagnoli ys := by
  have hlen : (bitsOf xs).length=(bitsOf ys).length := by
    rw [bitsOf_length,bitsOf_length,hl]
  have hsplit (bits : List Bool) :
      bits=bits.take k++(bits.drop k).take 32++bits.drop (k+32) := by
    rw [List.append_assoc,← List.drop_drop,List.take_append_drop,List.take_append_drop]
  have hfront : (bitsOf xs).take k=(bitsOf ys).take k := by
    apply List.ext_getElem?
    intro i
    rw [List.getElem?_take,List.getElem?_take]
    split_ifs with hi
    · exact h i (.inl hi)
    · rfl
  have hback : (bitsOf xs).drop (k+32)=(bitsOf ys).drop (k+32) := by
    apply List.ext_getElem?
    intro i
    rw [List.getElem?_drop,List.getElem?_drop]
    exact h _ (.inr (by omega))
  intro heq
  have hrun := congrArg (~~~·) heq
  simp only [castagnoli,BitVec.not_not] at hrun
  rw [hsplit (bitsOf xs),hsplit (bitsOf ys),hfront,hback] at hrun
  have hwindow := Base.Crc.run_burst (by decide) (by simp [hlen]) (by simp) hrun
  apply hne
  apply bitsOf_inj
  rw [hsplit (bitsOf xs),hsplit (bitsOf ys),hfront,hback,hwindow]

end Burst

/-- The table-driven checksum is the bit by bit one, and tells two strings of one length apart that
differ in at most 32 neighbouring bits. -/
theorem crc32c_detects : (∀ bytes,(crc32c bytes).toBitVec=castagnoli bytes) ∧
    ∀ (xs ys : Bytes) (k : Nat),xs.length=ys.length → xs ≠ ys → DifferWithin 32 k xs ys →
      crc32c xs ≠ crc32c ys := by
  refine ⟨crc32c_toBitVec,?_⟩
  intro xs ys k hl hne h heq
  have hbits := congrArg UInt32.toBitVec heq
  rw [crc32c_toBitVec,crc32c_toBitVec] at hbits
  exact castagnoli_ne hl hne h hbits

/-- The check value of CRC-32C, and a window that begins and ends within a byte. -/
theorem crc32c_detects_window :
    (crc32c (ascii "123456789")).toBitVec=castagnoli (ascii "123456789") ∧
    castagnoli (ascii "123456789")=0xE3069283#32 ∧
    crc32c [0,0,0,0,0] ≠ crc32c [0xF0,0xFF,0xFF,0xFF,0x0F] := by
  have hwindow : DifferWithin 32 4 [0,0,0,0,0] [0xF0,0xFF,0xFF,0xFF,0x0F] := by
    have hnear : ∀ i<40,i<4 ∨ 4+32 ≤ i →
        (bitsOf [0,0,0,0,0])[i]?=(bitsOf [0xF0,0xFF,0xFF,0xFF,0x0F])[i]? := by decide +kernel
    intro i hi
    by_cases hlt : i<40
    · exact hnear i hlt hi
    · rw [List.getElem?_eq_none (by rw [bitsOf_length]; simp; omega),
        List.getElem?_eq_none (by rw [bitsOf_length]; simp; omega)]
  exact ⟨crc32c_detects.1 _,by decide +kernel,crc32c_detects.2 _ _ 4 rfl (by decide) hwindow⟩

end CompilerFabric
