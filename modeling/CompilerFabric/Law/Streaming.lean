import CompilerFabric.Base.Sha256
import CompilerFabric.Core.Digest

namespace CompilerFabric

open Base

section Words

theorem rotr_toBitVec (v k : UInt32) (h : 0<k.toNat) (hk : k.toNat<32) :
    (rotr v k).toBitVec=v.toBitVec.rotateRight k.toNat := by
  have hsub : (32-k).toNat=32-k.toNat := by
    rw [UInt32.toNat_sub]
    have : (32 : UInt32).toNat=32 := rfl
    omega
  have hmod (j : UInt32) (hj : j.toNat<32) : (j.toBitVec%32).toNat=j.toNat := by
    rw [BitVec.toNat_umod]
    exact Nat.mod_eq_of_lt hj
  rw [rotr,UInt32.toBitVec_or,UInt32.toBitVec_shiftRight,UInt32.toBitVec_shiftLeft,
    BitVec.rotateRight_def,BitVec.ushiftRight_eq',BitVec.shiftLeft_eq',hmod k hk,
    hmod (32-k) (by omega),hsub,Nat.mod_eq_of_lt hk]

theorem bigEndianWord (x y z w : UInt8) :
    (x.toUInt32 <<< 24 ||| y.toUInt32 <<< 16 ||| z.toUInt32 <<< 8 ||| w.toUInt32).toBitVec=
      x.toBitVec++y.toBitVec++z.toBitVec++w.toBitVec := by
  have hshift (c : UInt8) (s : UInt32) (hs : s.toNat ≤ 24) :
      (c.toUInt32 <<< s).toNat=c.toNat <<< s.toNat := by
    have hc : c.toNat<2^8 := c.toNat_lt
    have hp : 2^s.toNat ≤ 2^24 := Nat.pow_le_pow_right (by decide) hs
    have hlt : c.toNat*2^s.toNat<2^32 :=
      (Nat.mul_lt_mul_of_lt_of_le hc hp (by decide)).trans_eq (by decide)
    rw [UInt32.toNat_shiftLeft,UInt8.toNat_toUInt32,Nat.mod_eq_of_lt (show s.toNat<32 by omega),
      Nat.shiftLeft_eq,Nat.mod_eq_of_lt hlt]
  apply BitVec.eq_of_toNat_eq
  simp only [UInt32.toNat_toBitVec,UInt32.toNat_or,hshift _ 24 (by decide),hshift _ 16 (by decide),
    hshift _ 8 (by decide),BitVec.toNat_append,UInt8.toNat_toBitVec,UInt8.toNat_toUInt32,
    Nat.shiftLeft_or_distrib,← Nat.shiftLeft_add]
  rfl

theorem wordBytes_eq (v : UInt32) : wordBytes v=Sha256.wordBytes v.toBitVec := by
  have hbyte (s : UInt32) (hs : s.toNat<32) :
      (v >>> s).toUInt8=UInt8.ofBitVec (v.toBitVec.extractLsb' s.toNat 8) := by
    apply UInt8.toNat_inj.1
    rw [UInt32.toNat_toUInt8,UInt32.toNat_shiftRight,Nat.mod_eq_of_lt hs]
    simp [BitVec.extractLsb'_toNat]
  have hlow : v.toUInt8=UInt8.ofBitVec (v.toBitVec.extractLsb' 0 8) := by
    apply UInt8.toNat_inj.1
    simp [BitVec.extractLsb'_toNat]
  rw [wordBytes,hbyte 24 (by decide),hbyte 16 (by decide),hbyte 8 (by decide),hlow]
  rfl

theorem lengthBytes_eq (v : UInt64) :
    ((List.range 8).map fun k => (v >>> UInt64.ofNat ((7-k)*8)).toUInt8)=Sha256.lengthBytes v.toBitVec := by
  have hbyte (k : Nat) : (v >>> UInt64.ofNat ((7-k)*8)).toUInt8=
      UInt8.ofBitVec (v.toBitVec.extractLsb' ((7-k)*8) 8) := by
    apply UInt8.toNat_inj.1
    rw [UInt64.toNat_toUInt8,UInt64.toNat_shiftRight,UInt64.toNat_ofNat']
    have hk : (7-k)*8%2^64%64=(7-k)*8 := by omega
    rw [hk]
    simp [BitVec.extractLsb'_toNat]
  simp only [hbyte]
  rfl

end Words

/-! The compression. -/

namespace ShaWords

/-- The words of the state as the standard has them. -/
def words (s : ShaWords) : Sha256.Words :=
  ⟨s.a.toBitVec,s.b.toBitVec,s.c.toBitVec,s.d.toBitVec,s.e.toBitVec,s.f.toBitVec,s.g.toBitVec,
    s.hh.toBitVec⟩

theorem toDigest_bytes (s : ShaWords) : s.toDigest.bytes=s.words.bytes := by
  simp only [toDigest,wordBytes_eq,words,Sha256.Words.bytes,List.flatMap_cons,List.flatMap_nil,
    List.append_nil,List.append_assoc]

end ShaWords

section Compression

theorem kInitialState_words : kInitialState.words=Sha256.initial := by decide +kernel

/-- The constant of a round. -/
def roundConstant (t : Nat) : UInt32 := UInt32.ofBitVec (Sha256.constants.getD t 0)

theorem kRoundConstants_eq : kRoundConstants=(List.range 64).map roundConstant := by decide +kernel

/-- A word of the message schedule. -/
def scheduleWord (block : Bytes) (t : Nat) : UInt32 := UInt32.ofBitVec (Sha256.schedule block t)

theorem schedule_of_lt (block : Bytes) {t : Nat} (h : t<16) :
    Sha256.schedule block t=Sha256.messageWord block t := by
  rw [Sha256.schedule,if_pos h]

theorem bigEndianWords_eq (n : Nat) (bytes : Bytes) (h : bytes.length=4*n) :
    bigEndianWords bytes=(List.range n).map fun t => UInt32.ofBitVec (Sha256.messageWord bytes t) := by
  induction n generalizing bytes with
  | zero =>
    have hn : bytes=[] := List.eq_nil_of_length_eq_zero h
    subst hn
    rfl
  | succ n ih =>
    match bytes,h with
    | x::y::z::w::rest,h =>
      have hrest : rest.length=4*n := by simpa [Nat.mul_add] using h
      rw [bigEndianWords,ih rest hrest,List.range_succ_eq_map,List.map_cons,List.map_map]
      congr 1
      exact UInt32.toBitVec_inj.1 (bigEndianWord x y z w)

/-- A later word of the schedule, as the loop computes it. -/
theorem scheduleWord_step (block : Bytes) {t : Nat} (h : 16 ≤ t) :
    let s0 := rotr (scheduleWord block (t-15)) 7 ^^^ rotr (scheduleWord block (t-15)) 18 ^^^
      scheduleWord block (t-15) >>> 3
    let s1 := rotr (scheduleWord block (t-2)) 17 ^^^ rotr (scheduleWord block (t-2)) 19 ^^^
      scheduleWord block (t-2) >>> 10
    scheduleWord block (t-16)+s0+scheduleWord block (t-7)+s1=scheduleWord block t := by
  intro s0 s1
  apply UInt32.toBitVec_inj.1
  have h0 : s0.toBitVec=Sha256.smallSigma0 (Sha256.schedule block (t-15)) := by
    simp only [s0,UInt32.toBitVec_xor,rotr_toBitVec _ 7 (by decide) (by decide),
      rotr_toBitVec _ 18 (by decide) (by decide)]
    rfl
  have h1 : s1.toBitVec=Sha256.smallSigma1 (Sha256.schedule block (t-2)) := by
    simp only [s1,UInt32.toBitVec_xor,rotr_toBitVec _ 17 (by decide) (by decide),
      rotr_toBitVec _ 19 (by decide) (by decide)]
    rfl
  show _=Sha256.schedule block t
  rw [Sha256.schedule,if_neg (by omega),UInt32.toBitVec_add,UInt32.toBitVec_add,UInt32.toBitVec_add,h0,h1]
  show Sha256.schedule block (t-16)+_+Sha256.schedule block (t-7)+_=_
  ac_rfl

/-- The loop of the schedule, newest word first, goes on with the words of the standard. -/
theorem schedule_eq (block : Bytes) (k m : Nat) (h : 16 ≤ m) :
    schedule k ((List.range m).map (scheduleWord block)).reverse=
      ((List.range (m+k)).map (scheduleWord block)).reverse := by
  induction k generalizing m with
  | zero => rfl
  | succ k ih =>
    have hget (j : Nat) (hj : j < m) :
        ((List.range m).map (scheduleWord block)).reverse.getD j 0=scheduleWord block (m-(j+1)) := by
      rw [List.getD_eq_getElem?_getD,List.getElem?_reverse (by simpa using hj)]
      simp [show m-1-j=m-(j+1) by omega,show m-(j+1) < m by omega]
    rw [schedule,hget 14 (by omega),hget 1 (by omega),hget 15 (by omega),hget 6 (by omega)]
    refine (congrArg (fun w => schedule k (w::((List.range m).map (scheduleWord block)).reverse))
      (scheduleWord_step block h)).trans ?_
    rw [show m+(k+1)=m+1+k by omega,← ih (m+1) (by omega),List.range_succ,List.map_append,
      List.reverse_append]
    rfl

/-- The schedule of a whole block. -/
theorem schedule_block {block : Bytes} (h : block.length=64) :
    (schedule 48 (bigEndianWords block).reverse).reverse=(List.range 64).map (scheduleWord block) := by
  have hfirst : bigEndianWords block=(List.range 16).map (scheduleWord block) := by
    rw [bigEndianWords_eq 16 block h]
    refine List.map_congr_left fun t ht => ?_
    rw [scheduleWord,schedule_of_lt block (List.mem_range.1 ht)]
  rw [hfirst,schedule_eq block 48 16 (Nat.le_refl _),List.reverse_reverse]

theorem shaRound_words (s : ShaWords) (k w : UInt32) :
    (shaRound s k w).words=Sha256.round s.words k.toBitVec w.toBitVec := by
  simp only [shaRound,ShaWords.words,Sha256.round,UInt32.toBitVec_add,UInt32.toBitVec_xor,UInt32.toBitVec_and,
    UInt32.toBitVec_not,rotr_toBitVec _ 6 (by decide) (by decide),
    rotr_toBitVec _ 11 (by decide) (by decide),rotr_toBitVec _ 25 (by decide) (by decide),
    rotr_toBitVec _ 2 (by decide) (by decide),rotr_toBitVec _ 13 (by decide) (by decide),
    rotr_toBitVec _ 22 (by decide) (by decide)]
  rfl

/-- The rounds keep in step with those of the standard. -/
theorem foldl_shaRound_words (K W : Nat → UInt32) (ts : List Nat) (s : ShaWords) :
    (ts.foldl (fun s t => shaRound s (K t) (W t)) s).words=
      ts.foldl (fun s t => Sha256.round s (K t).toBitVec (W t).toBitVec) s.words := by
  induction ts generalizing s with
  | nil => rfl
  | cons t ts ih => rw [List.foldl_cons,ih,shaRound_words,List.foldl_cons]

theorem compress_words (s : ShaWords) (block : Bytes) (h : block.length=64) :
    (compress s block).words=Sha256.compress s.words block := by
  have hrounds : ((kRoundConstants.zip (schedule 48 (bigEndianWords block).reverse).reverse).foldl
      (fun s kw => shaRound s kw.1 kw.2) s).words=(List.range 64).foldl (fun t i =>
        Sha256.round t (Sha256.constants.getD i 0) (Sha256.schedule block i)) s.words := by
    rw [schedule_block h,kRoundConstants_eq,List.zip_map',List.foldl_map]
    exact foldl_shaRound_words roundConstant (scheduleWord block) _ s
  rw [Sha256.compress,← hrounds]
  simp only [compress,ShaWords.words,UInt32.toBitVec_add,BitVec.add_comm]

theorem compressBlocks_eq (k : Nat) (h : ShaWords) (data : Bytes) :
    compressBlocks k h data=Sha256.absorb compress k h data := by
  induction k generalizing h data with
  | zero => rfl
  | succ k ih => exact ih _ _

end Compression

/-! The stream. -/

namespace Sha256State

variable {s : Sha256State} {all : Bytes}

/-- Where an update leaves the state: the blocks that are whole are compressed and what is left is kept. -/
theorem update_eq (hs : s.block.length<64) (data : Bytes) : s.update data=
    ⟨Sha256.absorb compress ((s.block++data).length/64) s.h (s.block++data),
      s.totalBytes+UInt64.ofNat data.length,
      (s.block++data).drop (64*((s.block++data).length/64))⟩ := by
  have hkept (tail : Bytes) : (if tail.isEmpty then [] else tail)=tail := by cases tail <;> rfl
  have hlen : (s.block++data).length=s.block.length+data.length := List.length_append
  by_cases hb : s.block=[]
  · have hone : ¬(0=64) := by decide
    simp only [update,hb,List.isEmpty_nil,if_true,List.take_zero,List.drop_zero,List.nil_append,
      List.length_nil,if_neg hone,hkept,compressBlocks_eq]
  have hne : s.block.isEmpty=false := by simpa using hb
  by_cases hfull : s.block.length+data.length<64
  · have hmin : min data.length (64-s.block.length)=data.length := by omega
    have hnot : ¬(s.block++data).length=64 := by omega
    have hturns : (s.block++data).length/64=0 := by omega
    simp only [update,hne,hmin,Bool.false_eq_true,if_false,List.take_length,List.drop_length,if_neg hnot,
      hturns]
    rfl
  · have hmin : min data.length (64-s.block.length)=64-s.block.length := by omega
    have htake : (s.block++data).take 64=s.block++data.take (64-s.block.length) := by
      rw [List.take_append,List.take_of_length_le (by omega)]
    have hdrop : (s.block++data).drop 64=data.drop (64-s.block.length) := by
      rw [List.drop_append,List.drop_eq_nil_of_le (by omega),List.nil_append]
    have hwhole : (s.block++data.take (64-s.block.length)).length=64 := by
      rw [← htake,List.length_take]
      omega
    have hturns : (s.block++data).length/64=(data.drop (64-s.block.length)).length/64+1 := by
      rw [List.length_drop]
      omega
    simp only [update,hne,hmin,Bool.false_eq_true,if_false,if_pos hwhole,hkept,hturns,compressBlocks_eq,
      Sha256.absorb,htake,hdrop,Nat.mul_add,Nat.mul_one,Nat.add_comm (64*_) 64,← List.drop_drop]

/-- The state has taken the bytes. -/
structure Took (s : Sha256State) (all : Bytes) : Prop where
  total : s.totalBytes=UInt64.ofNat all.length
  block : s.block=all.drop (64*(all.length/64))
  h : s.h=Sha256.absorb compress (all.length/64) kInitialState all

theorem took_nil : ({} : Sha256State).Took [] := ⟨rfl,rfl,rfl⟩

theorem Took.block_length (h : s.Took all) : s.block.length=all.length%64 := by
  rw [h.block,List.length_drop]
  omega

theorem Took.update (h : s.Took all) (data : Bytes) : (s.update data).Took (all++data) := by
  have hlt : all.length%64<64 := Nat.mod_lt _ (by decide)
  have hblock := h.block_length
  rw [update_eq (by omega)]
  have hturns : (all++data).length/64=all.length/64+(s.block++data).length/64 := by
    simp only [List.length_append,hblock]
    omega
  have hrest : (all++data).drop (64*(all.length/64))=s.block++data := by
    rw [List.drop_append_of_le_length (by omega),h.block]
  refine ⟨?_,?_,?_⟩
  · show s.totalBytes+UInt64.ofNat data.length=UInt64.ofNat (all++data).length
    rw [h.total,List.length_append,UInt64.ofNat_add]
  · rw [hturns,Nat.mul_add,← List.drop_drop,hrest]
  · show Sha256.absorb compress ((s.block++data).length/64) s.h (s.block++data)=_
    rw [hturns,Sha256.absorb_add,hrest,Sha256.absorb_append (Nat.mul_div_le _ _),← h.h]

theorem Took.updates (h : s.Took all) (chunks : List Bytes) :
    (chunks.foldl Sha256State.update s).Took (all++chunks.flatten) := by
  induction chunks generalizing s all with
  | nil => simpa using h
  | cons chunk chunks ih =>
    have hnext := ih (h.update chunk)
    rwa [List.append_assoc] at hnext

/-- What `finish` pads with is what the standard does. -/
theorem Took.padding (h : s.Took all) : ∃ pad,s.finish=(s.update pad).h.toDigest ∧
    all++pad=Sha256.padded all := by
  refine ⟨_,rfl,?_⟩
  have hrem : (s.totalBytes+1).toNat%64=(all.length+1)%64 := by
    rw [h.total,UInt64.toNat_add,UInt64.toNat_ofNat']
    have : (1 : UInt64).toNat=1 := rfl
    omega
  have hzeros : (if (s.totalBytes+1).toNat%64 ≤ 56 then 56-(s.totalBytes+1).toNat%64
      else 120-(s.totalBytes+1).toNat%64)=Sha256.zeroBytes all.length := by
    rw [hrem,Sha256.zeroBytes]
    split_ifs <;> omega
  have hbits : (s.totalBytes*8).toBitVec=BitVec.ofNat 64 (8*all.length) := by
    rw [h.total,UInt64.toBitVec_mul,Nat.mul_comm,BitVec.ofNat_mul]
    rfl
  rw [hzeros,lengthBytes_eq,hbits,Sha256.padded]
  simp

theorem Took.finish (h : s.Took all) : s.finish.bytes=Sha256.hash all := by
  obtain ⟨pad,hfinish,hpad⟩ := h.padding
  rw [hfinish,ShaWords.toDigest_bytes,(h.update pad).h,hpad,Sha256.hash,
    Sha256.absorb_map ShaWords.words compress_words (Nat.mul_div_le _ _),kInitialState_words]

end Sha256State

/-- However a message comes in chunks, the digest is the SHA-256 of the message. Of 2^61 bytes and more
the standard says nothing, and the lengths wrap alike. -/
theorem streaming_hash (chunks : List Bytes) :
    (chunks.foldl Sha256State.update {}).finish.bytes=Sha256.hash chunks.flatten :=
  (Sha256State.took_nil.updates chunks).finish

example : (Digest.of (ascii "abc")).toHex=
    ascii "ba7816bf8f01cfea414140de5dae2223b00361a396177a9cb410ff61f20015ad" := by decide +kernel

end CompilerFabric
