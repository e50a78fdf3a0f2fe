import CompilerFabric.Core.Identity

namespace CompilerFabric

def kRoundConstants : List UInt32 := [
  0x428a2f98,0x71374491,0xb5c0fbcf,0xe9b5dba5,0x3956c25b,0x59f111f1,0x923f82a4,0xab1c5ed5,
  0xd807aa98,0x12835b01,0x243185be,0x550c7dc3,0x72be5d74,0x80deb1fe,0x9bdc06a7,0xc19bf174,
  0xe49b69c1,0xefbe4786,0x0fc19dc6,0x240ca1cc,0x2de92c6f,0x4a7484aa,0x5cb0a9dc,0x76f988da,
  0x983e5152,0xa831c66d,0xb00327c8,0xbf597fc7,0xc6e00bf3,0xd5a79147,0x06ca6351,0x14292967,
  0x27b70a85,0x2e1b2138,0x4d2c6dfc,0x53380d13,0x650a7354,0x766a0abb,0x81c2c92e,0x92722c85,
  0xa2bfe8a1,0xa81a664b,0xc24b8b70,0xc76c51a3,0xd192e819,0xd6990624,0xf40e3585,0x106aa070,
  0x19a4c116,0x1e376c08,0x2748774c,0x34b0bcb5,0x391c0cb3,0x4ed8aa4a,0x5b9cca4f,0x682e6ff3,
  0x748f82ee,0x78a5636f,0x84c87814,0x8cc70208,0x90befffa,0xa4506ceb,0xbef9a3f7,0xc67178f2]

structure ShaWords where
  a : UInt32
  b : UInt32
  c : UInt32
  d : UInt32
  e : UInt32
  f : UInt32
  g : UInt32
  hh : UInt32

def kInitialState : ShaWords :=
  ⟨0x6a09e667,0xbb67ae85,0x3c6ef372,0xa54ff53a,0x510e527f,0x9b05688c,0x1f83d9ab,0x5be0cd19⟩

def rotr (value : UInt32) (count : UInt32) : UInt32 :=
  value >>> count ||| value <<< (32-count)

def bigEndianWords : Bytes → List UInt32
  | x::y::z::w::rest =>
      (x.toUInt32 <<< 24 ||| y.toUInt32 <<< 16 ||| z.toUInt32 <<< 8 ||| w.toUInt32) ::
        bigEndianWords rest
  | _ => []

/-- The message schedule, newest word first. -/
def schedule : Nat → List UInt32 → List UInt32
  | 0,w => w
  | k+1,w =>
      let w15 := w.getD 14 0
      let w2 := w.getD 1 0
      let s0 := rotr w15 7 ^^^ rotr w15 18 ^^^ w15 >>> 3
      let s1 := rotr w2 17 ^^^ rotr w2 19 ^^^ w2 >>> 10
      schedule k ((w.getD 15 0+s0+w.getD 6 0+s1)::w)

def shaRound (s : ShaWords) (k w : UInt32) : ShaWords :=
  let s1 := rotr s.e 6 ^^^ rotr s.e 11 ^^^ rotr s.e 25
  let ch := (s.e &&& s.f) ^^^ (~~~s.e &&& s.g)
  let temp1 := s.hh+s1+ch+k+w
  let s0 := rotr s.a 2 ^^^ rotr s.a 13 ^^^ rotr s.a 22
  let maj := (s.a &&& s.b) ^^^ (s.a &&& s.c) ^^^ (s.b &&& s.c)
  ⟨temp1+(s0+maj),s.a,s.b,s.c,s.d+temp1,s.e,s.f,s.g⟩

def compress (h : ShaWords) (block : Bytes) : ShaWords :=
  let w := (schedule 48 (bigEndianWords block).reverse).reverse
  let s := (kRoundConstants.zip w).foldl (fun s kw => shaRound s kw.1 kw.2) h
  ⟨h.a+s.a,h.b+s.b,h.c+s.c,h.d+s.d,h.e+s.e,h.f+s.f,h.g+s.g,h.hh+s.hh⟩

structure Sha256State where
  h : ShaWords := kInitialState
  totalBytes : UInt64 := 0
  block : Bytes := []

/-- The `while (size >= 64)` loop of `update`, `k` turns of it. -/
def compressBlocks : Nat → ShaWords → Bytes → ShaWords
  | 0,h,_ => h
  | k+1,h,data => compressBlocks k (compress h (data.take 64)) (data.drop 64)

def Sha256State.update (s : Sha256State) (data : Bytes) : Sha256State :=
  let total := s.totalBytes+UInt64.ofNat data.length
  let take := if s.block.isEmpty then 0 else min data.length (64-s.block.length)
  let block := s.block++data.take take
  let rest := data.drop take
  let full := block.length=64
  let h := if full then compress s.h block else s.h
  let block := if full then [] else block
  let turns := rest.length/64
  let tail := rest.drop (64*turns)
  ⟨compressBlocks turns h rest,total,if tail.isEmpty then block else tail⟩

def wordBytes (v : UInt32) : Bytes :=
  [(v >>> 24).toUInt8,(v >>> 16).toUInt8,(v >>> 8).toUInt8,v.toUInt8]

theorem zeros_length : (List.replicate 32 (0 : UInt8)).length=32 := rfl

/-- A 256-bit content digest. -/
@[ext] structure Digest where
  bytes : Bytes := List.replicate 32 0
  size : bytes.length=32 := by first | exact zeros_length | rfl
deriving DecidableEq

def ShaWords.toDigest (h : ShaWords) : Digest where
  bytes := wordBytes h.a++wordBytes h.b++wordBytes h.c++wordBytes h.d++
    wordBytes h.e++wordBytes h.f++wordBytes h.g++wordBytes h.hh
  size := rfl

def Sha256State.finish (s : Sha256State) : Digest :=
  let bitLength := s.totalBytes*8
  let rem := (s.totalBytes+1).toNat%64
  let zeros := if rem ≤ 56 then 56-rem else 120-rem
  let pad := 0x80::List.replicate zeros 0++
    (List.range 8).map fun k => (bitLength >>> UInt64.ofNat ((7-k)*8)).toUInt8
  (s.update pad).h.toDigest

namespace Digest

instance : Inhabited Digest := ⟨{}⟩

def of (bytes : Bytes) : Digest := (({} : Sha256State).update bytes).finish

def zero (d : Digest) : Bool := d.bytes.all (· == 0)

def toHex (d : Digest) : Bytes :=
  d.bytes.flatMap fun x => [hexDigit (x.toNat/16),hexDigit (x.toNat%16)]

def hexValue (c : UInt8) : Option Nat :=
  if 48 ≤ c ∧ c ≤ 57 then some (c.toNat-48)
  else if 97 ≤ c ∧ c ≤ 102 then some (c.toNat-87)
  else if 65 ≤ c ∧ c ≤ 70 then some (c.toNat-55)
  else none

def hexPairs : Bytes → Option Bytes
  | [] => some []
  | [_] => none
  | hi::lo::rest => do
      let h ← hexValue hi
      let l ← hexValue lo
      let tail ← hexPairs rest
      some (UInt8.ofNat (h*16+l)::tail)

theorem hexPairs_length {s out : Bytes} (h : hexPairs s=some out) : s.length=2*out.length := by
  fun_induction hexPairs s generalizing out with
  | case1 =>
    cases h
    rfl
  | case2 => cases h
  | case3 hi lo rest ih =>
    simp only [Option.bind_eq_bind,Option.bind_eq_some_iff,Option.some.injEq] at h
    obtain ⟨_,_,_,_,tail,ht,rfl⟩ := h
    simp [ih ht]
    omega

def fromHex (hex : Bytes) : Option Digest :=
  if h : hex.length=64 then
    match hr : hexPairs hex with
    | none => none
    | some raw => some ⟨raw,by have := hexPairs_length hr; omega⟩
  else none

theorem hexValue_hexDigit (n : Nat) (h : n<16) : hexValue (hexDigit n)=some n := by
  decide +revert

theorem hexPairs_flatMap (bs : Bytes) :
    hexPairs (bs.flatMap fun x => [hexDigit (x.toNat/16),hexDigit (x.toNat%16)])=some bs := by
  induction bs with
  | nil => rfl
  | cons b bs ih =>
    have hb := b.toNat_lt
    have hhi := hexValue_hexDigit (b.toNat/16) (by omega)
    have hlo := hexValue_hexDigit (b.toNat%16) (by omega)
    have hv : UInt8.ofNat (b.toNat/16*16+b.toNat%16)=b := by
      rw [show b.toNat/16*16+b.toNat%16=b.toNat by omega]
      simp
    simp only [List.flatMap_cons,List.cons_append,List.nil_append,hexPairs,hhi,hlo,ih,
      Option.bind_eq_bind,Option.bind_some,hv]

@[simp] theorem toHex_length (d : Digest) : d.toHex.length=64 := by
  have h : ∀ bs : Bytes,(bs.flatMap fun x =>
      [hexDigit (x.toNat/16),hexDigit (x.toNat%16)]).length=2*bs.length := by
    intro bs
    induction bs with
    | nil => rfl
    | cons b bs ih => simp [ih]; omega
  rw [toHex,h,d.size]

theorem fromHex_toHex (d : Digest) : fromHex d.toHex=some d := by
  have h := hexPairs_flatMap d.bytes
  unfold fromHex
  rw [dif_pos d.toHex_length]
  split
  · next hn => exact absurd (h.symm.trans hn) (by simp)
  · next raw hr =>
    have he : d.bytes=raw := Option.some.inj (h.symm.trans hr)
    simp [Digest.ext_iff,he]

end Digest

/-- `CanonicalWriter::text`: the length in 32 bits, then the bytes. -/
def canonicalText (value : Bytes) : Bytes := Base.leBytes 4 (value.length%2^32)++value

def canonicalU64 (value : Nat) : Bytes := Base.leBytes 8 (value%2^64)

end CompilerFabric
