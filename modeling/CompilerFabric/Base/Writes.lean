import Mathlib.Algebra.Order.Ring.Nat
import Mathlib.Data.List.Basic
import Mathlib.Tactic.Common

namespace CompilerFabric.Base

variable {κ β : Type} [DecidableEq κ] {ws : List (κ × β)} {k : κ} {b : β}

/-- What a series of writes leaves at a key, where it wrote there at all. -/
def lastWrite : List (κ × β) → κ → Option β
  | [],_ => none
  | (k,b)::rest,key => (lastWrite rest key).or (if k=key then some b else none)

theorem mem_of_lastWrite (h : lastWrite ws k=some b) : (k,b) ∈ ws := by
  induction ws with
  | nil => cases h
  | cons w ws ih =>
    obtain ⟨k',b'⟩ := w
    rcases Option.or_eq_some_iff.1 h with h | ⟨_,h⟩
    · exact List.mem_cons_of_mem _ (ih h)
    · split at h
      · next hk =>
        cases h
        subst hk
        exact List.mem_cons_self
      · cases h

theorem lastWrite_isSome (h : (k,b) ∈ ws) : (lastWrite ws k).isSome := by
  induction ws with
  | nil => cases h
  | cons w ws ih =>
    simp only [lastWrite,Option.isSome_or,Bool.or_eq_true]
    rcases List.mem_cons.1 h with rfl | h
    · right
      rw [if_pos rfl]
      rfl
    · exact .inl (ih h)

/-- Every write is still there to be read exactly when no two of them disagree about a key. -/
theorem lastWrite_iff_agree : (∀ w ∈ ws,lastWrite ws w.1=some w.2) ↔
    ∀ w ∈ ws,∀ w' ∈ ws,w.1=w'.1 → w.2=w'.2 := by
  constructor
  · intro h w hw w' hw' hk
    have hb := h w hw
    rw [hk,h w' hw'] at hb
    exact (Option.some.inj hb).symm
  · intro h w hw
    have ⟨b,hb⟩ := Option.isSome_iff_exists.1 (lastWrite_isSome (b := w.2) hw)
    have he : b=w.2 := h _ (mem_of_lastWrite hb) w hw rfl
    rw [hb,he]

end CompilerFabric.Base
