import Mathlib.Algebra.Order.Ring.Nat
import Mathlib.Data.List.Induction
import Mathlib.Data.List.Nodup

namespace CompilerFabric.Base

/-! The last so many distinct entries of a history. -/

variable {α : Type} [DecidableEq α] {history l : List α} {x y : α} {k : Nat}

/-- The distinct entries of a history, the latest first. -/
def latest (history : List α) : List α := history.foldl (fun seen x => x::seen.erase x) []

theorem latest_append (history : List α) (x : α) :
    latest (history++[x])=x::(latest history).erase x := List.foldl_append

theorem latest_nodup (history : List α) : (latest history).Nodup := by
  induction history using List.reverseRecOn with
  | nil => exact List.nodup_nil
  | append_singleton history x ih =>
    rw [latest_append]
    exact List.nodup_cons.2 ⟨ih.not_mem_erase,ih.erase x⟩

theorem mem_latest : y ∈ latest history ↔ y ∈ history := by
  induction history using List.reverseRecOn with
  | nil => rfl
  | append_singleton history x ih =>
    rw [latest_append,List.mem_cons,(latest_nodup history).mem_erase_iff,ih]
    by_cases hy : y=x <;> simp [hy]

/-- An entry that is not among the first is not taken from among them. -/
theorem take_erase (h : x ∉ l.take (k+1)) : (l.erase x).take k=l.take k := by
  induction l generalizing k with
  | nil => rfl
  | cons y l ih =>
    rw [List.take_succ_cons,List.mem_cons,not_or] at h
    have hne : y ≠ x := fun hy => h.1 hy.symm
    rw [List.erase_cons_tail (by simpa using hne)]
    cases k with
    | zero => rfl
    | succ k => rw [List.take_succ_cons,List.take_succ_cons,ih h.2]

/-- A new entry comes to the others in the window, and takes the place of the oldest. -/
theorem take_latest_append (h : x ∉ (latest history).take k) :
    (latest (history++[x])).take k=(x::(latest history).take k).take k := by
  rw [latest_append]
  cases k with
  | zero => rfl
  | succ k => rw [List.take_succ_cons,List.take_succ_cons,take_erase h,List.take_take,
      Nat.min_eq_left (Nat.le_succ k)]

end CompilerFabric.Base
