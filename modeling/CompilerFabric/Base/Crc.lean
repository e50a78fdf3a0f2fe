import Mathlib.Algebra.Order.Ring.Nat
import Mathlib.Data.List.Basic
import Mathlib.Data.BitVec

namespace CompilerFabric.Base.Crc

/-! Reflected cyclic redundancy checks: a register that moves down one place for each bit. -/

variable {w : Nat} (poly : BitVec w)

/-- The register takes one bit at its low end. -/
def feed (r : BitVec w) (bit : Bool) : BitVec w :=
  if r.getLsbD 0^^bit then r>>>1^^^poly else r>>>1

/-- The register behind the bits, the first of them taken first. -/
def run (r : BitVec w) (bits : List Bool) : BitVec w := bits.foldl (feed poly) r

/-- The bits from the low end of a register on. -/
def pack : List Bool → BitVec w
  | [] => 0
  | bit::bits => pack bits<<<1^^^(BitVec.ofBool bit).setWidth w

variable {poly} {r s : BitVec w} {bits front u v back : List Bool}

theorem run_append (r : BitVec w) (xs ys : List Bool) :
    run poly r (xs++ys)=run poly (run poly r xs) ys := List.foldl_append

theorem xor_twice (a b c : BitVec w) : a^^^c^^^(b^^^c)=a^^^b := by
  rw [BitVec.xor_comm b c,BitVec.xor_assoc,← BitVec.xor_assoc c c,BitVec.xor_self,BitVec.zero_xor]

/-- A step is linear in the register and the bit. -/
theorem feed_xor (r s : BitVec w) (a b : Bool) :
    feed poly (r^^^s) (a^^b)=feed poly r a^^^feed poly s b := by
  simp only [feed,BitVec.getLsbD_xor,BitVec.ushiftRight_xor_distrib]
  cases r.getLsbD 0 <;> cases s.getLsbD 0 <;> cases a <;> cases b <;>
    simp only [Bool.xor_false,Bool.xor_true,Bool.not_true,Bool.not_false,Bool.false_eq_true,
      if_true,if_false,xor_twice]
  all_goals ac_rfl

variable (poly) in
theorem run_xor (r s : BitVec w) {xs ys : List Bool} (h : xs.length=ys.length) :
    run poly r xs^^^run poly s ys=run poly (r^^^s) (List.zipWith (·^^·) xs ys) := by
  induction xs generalizing r s ys with
  | nil =>
    obtain rfl := List.length_eq_zero_iff.1 h.symm
    rfl
  | cons a xs ih =>
    cases ys with
    | nil => cases h
    | cons b ys =>
      have hrest := ih (feed poly r a) (feed poly s b) (Nat.succ.inj h)
      rw [← feed_xor] at hrest
      exact hrest

section Injective

/-- The register that a step clears was clear: the bit that falls out shows at the high end. -/
theorem eq_zero_of_feed (hp : poly.msb=true) (h : feed poly r false=0) : r=0 := by
  cases hlow : r.getLsbD 0 with
  | true =>
    have hpoly : r>>>1=poly := by simpa [feed,hlow] using h
    rw [← hpoly] at hp
    simp at hp
  | false =>
    have hshift : r>>>1=0 := by simpa [feed,hlow] using h
    apply BitVec.eq_of_getLsbD_eq
    intro i _
    cases i with
    | zero => simpa using hlow
    | succ i =>
      have hbit := congrArg (fun x : BitVec w => x.getLsbD i) hshift
      simpa [Nat.add_comm] using hbit

theorem feed_injective (hp : poly.msb=true) {bit : Bool} (h : feed poly r bit=feed poly s bit) :
    r=s := by
  have hzero : feed poly (r^^^s) false=0 := by
    rw [← Bool.xor_self bit,feed_xor,h,BitVec.xor_self]
    rfl
  exact BitVec.xor_eq_zero_iff.1 (eq_zero_of_feed hp hzero)

theorem run_injective (hp : poly.msb=true) (h : run poly r bits=run poly s bits) : r=s := by
  induction bits generalizing r s with
  | nil => exact h
  | cons bit bits ih => exact feed_injective hp (ih h)

end Injective

section Pack

theorem getLsbD_pack (h : bits.length ≤ w) (i : Nat) :
    (pack bits : BitVec w).getLsbD i=bits.getD i false := by
  induction bits generalizing i with
  | nil => simp [pack]
  | cons bit bits ih =>
    have hw : bits.length<w := h
    cases i with
    | zero =>
      have hpos : 0<w := by omega
      simp [pack,hpos]
    | succ i =>
      have hrest := ih (by omega) i
      simp only [pack,BitVec.getLsbD_xor,BitVec.getLsbD_shiftLeft]
      by_cases hi : i+1<w
      · simpa [hi] using hrest
      · have hout : bits.length ≤ i := by omega
        simp [hi,hout]

/-- What leaves the high end clear comes back down unchanged. -/
theorem feed_shiftLeft (h : r.msb=false) : feed poly (r<<<1) false=r := by
  have hlow : (r<<<1).getLsbD 0=false := by simp
  simp only [feed,hlow,Bool.xor_self,Bool.false_eq_true,if_false]
  apply BitVec.eq_of_getLsbD_eq
  intro i hi
  rw [BitVec.getLsbD_ushiftRight,BitVec.getLsbD_shiftLeft,Nat.add_sub_cancel_left]
  by_cases htop : 1+i<w
  · simp [htop]
  · obtain rfl : i=w-1 := by omega
    rw [BitVec.msb_eq_getLsbD_last] at h
    simp [htop,h]

theorem run_shiftLeft {n : Nat} (h : ∀ i,w ≤ i+n → r.getLsbD i=false) :
    run poly (r<<<n) (List.replicate n false)=r := by
  induction n with
  | zero => rw [BitVec.shiftLeft_zero]; rfl
  | succ n ih =>
    have hmsb : (r<<<n).msb=false := by
      rw [BitVec.msb_eq_getLsbD_last,BitVec.getLsbD_shiftLeft]
      by_cases hn : w-1<n
      · simp [hn]
      · rw [h (w-1-n) (by omega)]
        simp
    have hrest := ih fun i hi => h i (by omega)
    rw [BitVec.shiftLeft_add]
    show run poly (feed poly (r<<<n<<<1) false) (List.replicate n false)=r
    rw [feed_shiftLeft hmsb]
    exact hrest

theorem msb_pack (h : bits.length<w) : (pack bits : BitVec w).msb=false := by
  have hout : bits.length ≤ w-1 := by omega
  rw [BitVec.msb_eq_getLsbD_last,getLsbD_pack (by omega)]
  simp [hout]

theorem feed_bit (r : BitVec w) (hw : 0<w) (bit : Bool) :
    feed poly (r^^^(BitVec.ofBool bit).setWidth w) false=feed poly r bit := by
  have hout : (BitVec.ofBool bit).setWidth w>>>1=0#w := by
    apply BitVec.eq_of_getLsbD_eq
    intro i _
    simp
  have hlow : ((BitVec.ofBool bit).setWidth w).getLsbD 0=bit := by simp [hw]
  rw [feed,feed,BitVec.getLsbD_xor,hlow,BitVec.ushiftRight_xor_distrib,hout,Bool.xor_false,
    BitVec.xor_zero]

variable (poly) in
/-- Bits that fit the register may as well stand in it from the start. -/
theorem run_pack (h : bits.length ≤ w) (r : BitVec w) :
    run poly r bits=run poly (r^^^pack bits) (List.replicate bits.length false) := by
  induction bits generalizing r with
  | nil => simp [pack,run]
  | cons bit bits ih =>
    have hw : bits.length<w := h
    have hstep : feed poly (r^^^pack (bit::bits)) false=feed poly r bit^^^pack bits := by
      rw [pack,BitVec.xor_comm (pack bits<<<1),← BitVec.xor_assoc,← Bool.xor_self false,feed_xor,
        feed_bit r (by omega),feed_shiftLeft (msb_pack hw)]
    have hrest := ih (by omega) (feed poly r bit)
    rw [← hstep] at hrest
    exact hrest

end Pack

section Burst

theorem run_zero (n : Nat) : run poly 0 (List.replicate n false)=0 := by
  induction n with
  | zero => rfl
  | succ n ih =>
    have hfeed : feed poly 0 false=0 := by simp [feed]
    rw [List.replicate_succ]
    show run poly (feed poly 0 false) (List.replicate n false)=0
    rw [hfeed,ih]

theorem eq_of_zipWith_xor (hl : u.length=v.length)
    (h : ∀ i,(List.zipWith (·^^·) u v).getD i false=false) : u=v := by
  apply List.ext_getElem hl
  intro i hu hv
  have hi := h i
  rw [List.getD_eq_getElem?_getD,List.getElem?_zipWith,List.getElem?_eq_getElem hu,
    List.getElem?_eq_getElem hv] at hi
  simpa using hi

/-- Two strings that differ in no more neighbouring bits than the register has are told apart. -/
theorem run_burst (hp : poly.msb=true) (hl : u.length=v.length) (hw : u.length ≤ w)
    (h : run poly r (front++u++back)=run poly r (front++v++back)) : u=v := by
  rw [run_append,run_append,run_append,run_append] at h
  have hmid := run_injective hp h
  have hdiff := run_xor poly (run poly r front) (run poly r front) hl
  rw [hmid,BitVec.xor_self,BitVec.xor_self] at hdiff
  have hfit : (List.zipWith (·^^·) u v).length ≤ w := by
    rw [List.length_zipWith]
    omega
  have hpacked := run_pack poly hfit (0#w)
  rw [← hdiff,BitVec.zero_xor] at hpacked
  have hclear : (pack (List.zipWith (·^^·) u v) : BitVec w)=0 :=
    run_injective hp (hpacked.symm.trans (run_zero _).symm)
  apply eq_of_zipWith_xor hl
  intro i
  rw [← getLsbD_pack hfit,hclear]
  simp

end Burst

end CompilerFabric.Base.Crc
