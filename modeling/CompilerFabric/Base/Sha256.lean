import CompilerFabric.Base.Format
import Mathlib.Data.Nat.Prime.Defs

/-! SHA-256 as the standard has it, over messages of bytes. -/

namespace CompilerFabric.Base.Sha256

abbrev Word := BitVec 32

def ch (x y z : Word) : Word := (x &&& y) ^^^ (~~~x &&& z)

def maj (x y z : Word) : Word := (x &&& y) ^^^ (x &&& z) ^^^ (y &&& z)

def bigSigma0 (x : Word) : Word := x.rotateRight 2 ^^^ x.rotateRight 13 ^^^ x.rotateRight 22

def bigSigma1 (x : Word) : Word := x.rotateRight 6 ^^^ x.rotateRight 11 ^^^ x.rotateRight 25

def smallSigma0 (x : Word) : Word := x.rotateRight 7 ^^^ x.rotateRight 18 ^^^ x >>> 3

def smallSigma1 (x : Word) : Word := x.rotateRight 17 ^^^ x.rotateRight 19 ^^^ x >>> 10

section Constants

/-- The largest number below `2^bits` whose power `k` is not above `n`, bit by bit from the top. -/
def root (k n : Nat) : Nat → Nat
  | 0 => 0
  | bits+1 =>
      let r := root k (n/2^k) bits
      if (2*r+1)^k ≤ n then 2*r+1 else 2*r

/-- A root is the integral part of the real one. -/
theorem root_spec {k : Nat} (hk : k ≠ 0) (n bits : Nat) (h : n<(2^bits)^k) :
    (root k n bits)^k ≤ n ∧ n<(root k n bits+1)^k := by
  induction bits generalizing n with
  | zero =>
    have hn : n=0 := by simpa using h
    subst hn
    simp [root,hk]
  | succ bits ih =>
    have hpos : 0<2^k := Nat.two_pow_pos k
    have hdiv : n/2^k<(2^bits)^k := by
      rw [Nat.div_lt_iff_lt_mul hpos,← Nat.mul_pow,← Nat.pow_succ]
      exact h
    obtain ⟨hlo,hhi⟩ := ih (n/2^k) hdiv
    rw [root]
    split_ifs with hodd
    · refine ⟨hodd,?_⟩
      have hnext := (Nat.div_lt_iff_lt_mul hpos).1 hhi
      rwa [← Nat.mul_pow,Nat.mul_comm,Nat.mul_add] at hnext
    · refine ⟨?_,Nat.lt_of_not_le hodd⟩
      rw [Nat.mul_pow,Nat.mul_comm]
      exact (Nat.le_div_iff_mul_le hpos).1 hlo

/-- The first 64 primes. -/
def primes : List Nat :=
  (List.range 312).filter fun p => 2 ≤ p ∧ ∀ d ∈ List.range p,2 ≤ d → p%d ≠ 0

theorem mem_primes (p : Nat) : p ∈ primes ↔ p<312 ∧ p.Prime := by
  simp only [primes,List.mem_filter,List.mem_range,decide_eq_true_eq,Nat.prime_def_lt']
  refine and_congr_right fun _ => and_congr_right fun _ => forall_congr' fun d => ?_
  rw [Nat.dvd_iff_mod_eq_zero]
  tauto

/-- The first 32 bits of the fractional part of the root `k` of a number. -/
def rootFraction (k n : Nat) : Word := BitVec.ofNat 32 (root k (n*2^(32*k)) 40)

/-- `K`: the cube roots of the first 64 primes. -/
def constants : List Word := primes.map (rootFraction 3)

end Constants

/-- The words of the state. -/
@[ext] structure Words where
  a : Word
  b : Word
  c : Word
  d : Word
  e : Word
  f : Word
  g : Word
  h : Word
deriving DecidableEq

/-- The square roots of the first eight primes. -/
def initial : Words :=
  ⟨rootFraction 2 2,rootFraction 2 3,rootFraction 2 5,rootFraction 2 7,
    rootFraction 2 11,rootFraction 2 13,rootFraction 2 17,rootFraction 2 19⟩

/-- The word `t` of a block, its bytes in their order. -/
def messageWord (block : Bytes) (t : Nat) : Word :=
  (block.getD (4*t) 0).toBitVec++(block.getD (4*t+1) 0).toBitVec++(block.getD (4*t+2) 0).toBitVec++
    (block.getD (4*t+3) 0).toBitVec

/-- `W`, the message schedule. -/
def schedule (block : Bytes) (t : Nat) : Word :=
  if t<16 then messageWord block t
  else smallSigma1 (schedule block (t-2))+schedule block (t-7)+smallSigma0 (schedule block (t-15))+
    schedule block (t-16)
termination_by t

def round (s : Words) (k w : Word) : Words :=
  let t1 := s.h+bigSigma1 s.e+ch s.e s.f s.g+k+w
  let t2 := bigSigma0 s.a+maj s.a s.b s.c
  ⟨t1+t2,s.a,s.b,s.c,s.d+t1,s.e,s.f,s.g⟩

def compress (s : Words) (block : Bytes) : Words :=
  let t := (List.range 64).foldl (fun t i => round t (constants.getD i 0) (schedule block i)) s
  ⟨t.a+s.a,t.b+s.b,t.c+s.c,t.d+s.d,t.e+s.e,t.f+s.f,t.g+s.g,t.h+s.h⟩

/-- How many zero bytes stand between the byte `0x80` and the length. -/
def zeroBytes (length : Nat) : Nat := (119-length%64)%64

/-- The bytes of a word, the highest first. -/
def wordBytes (x : Word) : Bytes := [24,16,8,0].map fun s => UInt8.ofBitVec (x.extractLsb' s 8)

/-- The length in bits as eight bytes, the highest first. -/
def lengthBytes (bits : BitVec 64) : Bytes :=
  [56,48,40,32,24,16,8,0].map fun s => UInt8.ofBitVec (bits.extractLsb' s 8)

def padded (message : Bytes) : Bytes :=
  message++0x80::List.replicate (zeroBytes message.length) 0++
    lengthBytes (BitVec.ofNat 64 (8*message.length))

def Words.bytes (s : Words) : Bytes :=
  [s.a,s.b,s.c,s.d,s.e,s.f,s.g,s.h].flatMap wordBytes

/-- The state behind `count` blocks of the bytes. -/
def absorb {σ : Type} (f : σ → Bytes → σ) : Nat → σ → Bytes → σ
  | 0,s,_ => s
  | count+1,s,bytes => absorb f count (f s (bytes.take 64)) (bytes.drop 64)

def hash (message : Bytes) : Bytes :=
  (absorb compress ((padded message).length/64) initial (padded message)).bytes

section Absorb

variable {σ τ : Type} {f : σ → Bytes → σ} {s : σ} {bytes more : Bytes} {m n : Nat}

theorem absorb_add (f : σ → Bytes → σ) (m n : Nat) (s : σ) (bytes : Bytes) :
    absorb f (m+n) s bytes=absorb f n (absorb f m s bytes) (bytes.drop (64*m)) := by
  induction m generalizing s bytes with
  | zero => simp [absorb]
  | succ m ih =>
    rw [Nat.add_right_comm,absorb,ih,absorb,List.drop_drop]
    congr 2
    omega

/-- Blocks that are all there are not changed by bytes behind them. -/
theorem absorb_append (h : 64*n ≤ bytes.length) : absorb f n s (bytes++more)=absorb f n s bytes := by
  induction n generalizing s bytes with
  | zero => rfl
  | succ n ih =>
    rw [absorb,absorb,List.take_append_of_le_length (by omega),List.drop_append_of_le_length (by omega)]
    exact ih (by rw [List.length_drop]; omega)

/-- Two compressions that keep in step on whole blocks keep in step on all of them. -/
theorem absorb_map {g : τ → Bytes → τ} (φ : σ → τ)
    (h : ∀ s block,block.length=64 → φ (f s block)=g (φ s) block) (hn : 64*n ≤ bytes.length) :
    φ (absorb f n s bytes)=absorb g n (φ s) bytes := by
  induction n generalizing s bytes with
  | zero => rfl
  | succ n ih =>
    rw [absorb,absorb,← h s _ (by rw [List.length_take]; omega)]
    exact ih (by rw [List.length_drop]; omega)

end Absorb

end CompilerFabric.Base.Sha256
