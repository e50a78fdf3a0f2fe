import CompilerFabric.Core.Scan

namespace CompilerFabric

/-- One turn of the checksum. -/
def crc32cStep (crc : Nat) (value : UInt8) : Nat :=
  crc32cTable ((crc^^^value.toNat)&&&0xFF)^^^crc>>>8

theorem crc32c_eq (bytes : Bytes) :
    crc32c bytes=UInt32.ofNat (bytes.foldl crc32cStep 0xFFFFFFFF^^^0xFFFFFFFF) := by
  rw [crc32c,crc32cLoop_eq_foldl]
  rfl

theorem xor_left_cancel {a b c : Nat} (h : a^^^b=a^^^c) : b=c := by
  have ha := congrArg (a^^^·) h
  simpa [← Nat.xor_assoc] using ha

theorem xor_right_cancel {a b c : Nat} (h : b^^^a=c^^^a) : b=c := by
  rw [Nat.xor_comm b,Nat.xor_comm c] at h
  exact xor_left_cancel h

theorem crc32cTable_lt {i : Nat} (h : i<256) : crc32cTable i<2^32 := by
  have hall : ∀ i ∈ List.range 256,crc32cTable i<2^32 := by decide +kernel
  exact hall i (List.mem_range.2 h)

/-- The index of a table entry from its high byte: the indices of the eight entries whose high byte
is a power of two, added up. -/
def crc32cIndex (high : Nat) : Nat :=
  ([241,226,196,136,16,32,177,98].zipIdx.map fun (index,bit) =>
    if high.testBit bit then index else 0).foldl (·^^^·) 0

theorem crc32cIndex_table {i : Nat} (h : i<256) : crc32cIndex (crc32cTable i>>>24)=i := by
  have hall : ∀ i ∈ List.range 256,crc32cIndex (crc32cTable i>>>24)=i := by decide +kernel
  exact hall i (List.mem_range.2 h)

/-- The high bytes of the table tell its entries apart. -/
theorem crc32cTable_high_inj {i j : Nat} (hi : i<256) (hj : j<256)
    (h : crc32cTable i>>>24=crc32cTable j>>>24) : i=j := by
  rw [← crc32cIndex_table hi,h,crc32cIndex_table hj]

theorem low_lt (n : Nat) : n&&&0xFF<256 := Nat.lt_of_le_of_lt Nat.and_le_right (by decide)

theorem crc32cStep_lt {crc : Nat} (h : crc<2^32) (value : UInt8) : crc32cStep crc value<2^32 := by
  apply Nat.xor_lt_two_pow
  · exact crc32cTable_lt (low_lt _)
  · rw [Nat.shiftRight_eq_div_pow]
    omega

/-- The high byte of the register is that of the table entry. -/
theorem crc32cStep_high {crc : Nat} (h : crc<2^32) (value : UInt8) :
    crc32cStep crc value>>>24=crc32cTable ((crc^^^value.toNat)&&&0xFF)>>>24 := by
  have hz : crc>>>8>>>24=0 := by
    rw [← Nat.shiftRight_add,Nat.shiftRight_eq_div_pow]
    omega
  rw [crc32cStep,Nat.shiftRight_xor_distrib,hz,Nat.xor_zero]

theorem low_xor (c : Nat) (v : UInt8) : (c^^^v.toNat)&&&0xFF=(c&&&0xFF)^^^v.toNat := by
  have hv : v.toNat&&&0xFF=v.toNat := by
    have hlt := v.toNat_lt
    rw [show 0xFF=2^8-1 from rfl,Nat.and_two_pow_sub_one_eq_mod]
    omega
  rw [Nat.and_xor_distrib_right,hv]

/-- Different bytes give different registers. -/
theorem crc32cStep_byte {crc : Nat} (h : crc<2^32) {v w : UInt8} (he : crc32cStep crc v=crc32cStep crc w) :
    v=w := by
  have hhigh := congrArg (·>>>24) he
  simp only [crc32cStep_high h] at hhigh
  have hlow := crc32cTable_high_inj (low_lt _) (low_lt _) hhigh
  rw [low_xor,low_xor] at hlow
  exact UInt8.toNat.inj (xor_left_cancel hlow)

/-- No register is lost by a turn. -/
theorem crc32cStep_inj {c d : Nat} (hc : c<2^32) (hd : d<2^32) {v : UInt8}
    (he : crc32cStep c v=crc32cStep d v) : c=d := by
  have hhigh := congrArg (·>>>24) he
  simp only [crc32cStep_high hc,crc32cStep_high hd] at hhigh
  have hlow := crc32cTable_high_inj (low_lt _) (low_lt _) hhigh
  have hbyte : c&&&0xFF=d&&&0xFF := by
    rw [low_xor,low_xor] at hlow
    exact xor_right_cancel hlow
  have hshift : c>>>8=d>>>8 := by
    rw [crc32cStep,crc32cStep,hlow] at he
    exact xor_left_cancel he
  rw [show 0xFF=2^8-1 from rfl,Nat.and_two_pow_sub_one_eq_mod,Nat.and_two_pow_sub_one_eq_mod] at hbyte
  rw [Nat.shiftRight_eq_div_pow,Nat.shiftRight_eq_div_pow] at hshift
  omega

theorem foldl_crc32cStep_lt {crc : Nat} (h : crc<2^32) (bytes : Bytes) :
    bytes.foldl crc32cStep crc<2^32 := by
  induction bytes generalizing crc with
  | nil => exact h
  | cons v bytes ih => exact ih (crc32cStep_lt h v)

theorem foldl_crc32cStep_inj {c d : Nat} (hc : c<2^32) (hd : d<2^32) {bytes : Bytes}
    (he : bytes.foldl crc32cStep c=bytes.foldl crc32cStep d) : c=d := by
  induction bytes generalizing c d with
  | nil => exact he
  | cons v bytes ih => exact crc32cStep_inj hc hd (ih (crc32cStep_lt hc v) (crc32cStep_lt hd v) he)

theorem ofNat_inj {a b : Nat} (ha : a<2^32) (hb : b<2^32) (h : UInt32.ofNat a=UInt32.ofNat b) : a=b := by
  have hn := congrArg UInt32.toNat h
  rwa [UInt32.toNat_ofNat_of_lt' ha,UInt32.toNat_ofNat_of_lt' hb] at hn

/-- A checksum notices every change of one byte. -/
theorem crc32c_set {bytes : Bytes} {i : Nat} {value : UInt8}
    (he : crc32c (bytes.set i value)=crc32c bytes) : bytes.set i value=bytes := by
  by_cases hi : i<bytes.length
  · have hinit : 0xFFFFFFFF<2^32 := by decide
    have hsplit := List.take_append_drop i bytes
    rw [List.drop_eq_getElem_cons hi] at hsplit
    rw [List.set_eq_take_append_cons_drop,if_pos hi] at he ⊢
    nth_rewrite 3 [← hsplit] at he
    nth_rewrite 3 [← hsplit]
    rw [crc32c_eq,crc32c_eq,List.foldl_append,List.foldl_append,List.foldl_cons,List.foldl_cons] at he
    have hbefore := foldl_crc32cStep_lt hinit (bytes.take i)
    generalize (bytes.take i).foldl crc32cStep 0xFFFFFFFF=crc at he hbefore
    have hv := crc32cStep_lt hbefore value
    have hw := crc32cStep_lt hbefore bytes[i]
    have hfinal := xor_right_cancel (ofNat_inj (Nat.xor_lt_two_pow
      (foldl_crc32cStep_lt hv _) hinit) (Nat.xor_lt_two_pow (foldl_crc32cStep_lt hw _) hinit) he)
    rw [crc32cStep_byte hbefore (foldl_crc32cStep_inj hv hw hfinal)]
  · exact List.set_eq_of_length_le (Nat.not_lt.1 hi)

section Words

variable {bytes : Bytes} {w o i n : Nat} {value : UInt8}

theorem set_eq_self_of_getElem (h : ∀ hi : i<bytes.length,value=bytes[i]) : bytes.set i value=bytes := by
  by_cases hi : i<bytes.length
  · rw [h hi,List.set_getElem_self]
  · exact List.set_eq_of_length_le (Nat.not_lt.1 hi)

/-- A byte of a piece that did not change did not change. -/
theorem set_eq_self_of_piece (ho : o ≤ i) (hi : i<o+w)
    (h : ((bytes.drop o).take w).set (i-o) value=(bytes.drop o).take w) : bytes.set i value=bytes := by
  apply set_eq_self_of_getElem
  intro hlt
  have hlen : i-o<((bytes.drop o).take w).length := by
    rw [List.length_take,List.length_drop]
    omega
  have hget := congrArg (·[i-o]?) h
  simp only [List.getElem?_set_self hlen,List.getElem?_eq_getElem hlen,Option.some.injEq] at hget
  rw [hget,List.getElem_take,List.getElem_drop]
  congr 1
  omega

theorem piece_set (h : i<o ∨ o+w ≤ i) : ((bytes.set i value).drop o).take w=(bytes.drop o).take w := by
  rw [List.drop_set]
  split_ifs with hi
  · rfl
  · rw [List.take_set,List.set_eq_of_length_le]
    rw [List.length_take]
    omega

theorem piece_set_inside (h : o ≤ i) :
    ((bytes.set i value).drop o).take w=((bytes.drop o).take w).set (i-o) value := by
  rw [List.drop_set,if_neg (by omega),List.take_set]

theorem getWord_set (h : i<o ∨ o+w ≤ i) : getWord w o (bytes.set i value)=getWord w o bytes := by
  rw [getWord,getWord,piece_set h]

/-- A word that reads the same holds the same bytes. -/
theorem set_eq_self_of_getWord (ho : o ≤ i) (hi : i<o+w)
    (h : getWord w o (bytes.set i value)=getWord w o bytes) : bytes.set i value=bytes := by
  rw [getWord,getWord,piece_set_inside ho] at h
  apply set_eq_self_of_piece ho hi
  rw [← Base.leBytes_leValue (((bytes.drop o).take w).set (i-o) value),h,List.length_set,
    Base.leBytes_leValue]

/-- Bytes with the checksum of the first `n` of them behind those: a change of one of these breaks
it. -/
theorem set_eq_self_of_checksum (hi : i<n+4) (h : getWord 4 n bytes=(crc32c (bytes.take n)).toNat)
    (h' : getWord 4 n (bytes.set i value)=(crc32c ((bytes.set i value).take n)).toNat) :
    bytes.set i value=bytes := by
  by_cases hn : i<n
  · rw [getWord_set (.inl hn),h,List.take_set] at h'
    have hset := crc32c_set (UInt32.toNat.inj h').symm
    apply set_eq_self_of_piece (o := 0) (w := n) (Nat.zero_le i) (by omega)
    simpa using hset
  · have ht : (bytes.set i value).take n=bytes.take n := by
      simpa using piece_set (o := 0) (w := n) (.inr (by omega))
    rw [ht,← h] at h'
    exact set_eq_self_of_getWord (by omega) (by omega) h'

end Words

end CompilerFabric
