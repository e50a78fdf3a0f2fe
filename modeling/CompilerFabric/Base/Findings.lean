import Mathlib.Data.List.Nodup
import Mathlib.Tactic.Common

namespace CompilerFabric.Base

variable {α σ κ : Type}

/-- One more finding, where something is broken. -/
def flag (found : List α) (broken : Bool) (finding : α) : List α :=
  if broken then found++[finding] else found

@[simp] theorem flag_eq_nil {found : List α} {broken : Bool} {finding : α} :
    flag found broken finding=[] ↔ found=[] ∧ broken=false := by
  cases broken <;> simp [flag]

section Pass

variable {f : σ → α → σ} {silent : σ → Prop} {ok : α → Prop} {seen : σ → List κ} {key : α → Option κ}

/-- A pass that judges its items one by one is silent when it was and every item is in order. -/
theorem foldl_silent (h : ∀ s a,silent (f s a) ↔ silent s ∧ ok a) (l : List α) (s : σ) :
    silent (l.foldl f s) ↔ silent s ∧ ∀ a ∈ l,ok a := by
  induction l generalizing s with
  | nil => simp
  | cons a l ih =>
    rw [List.foldl_cons,ih,h,List.forall_mem_cons,and_assoc]

/-- A pass that remembers the keys it has met is silent when in addition no key comes twice. -/
theorem foldl_distinct (hseen : ∀ s a k,k ∈ seen (f s a) ↔ k ∈ seen s ∨ key a=some k)
    (h : ∀ s a,silent (f s a) ↔ silent s ∧ ok a ∧ ∀ k,key a=some k → k ∉ seen s)
    (l : List α) (s : σ) : silent (l.foldl f s) ↔ silent s ∧ (∀ a ∈ l,ok a) ∧
      (l.filterMap key).Nodup ∧ ∀ k ∈ l.filterMap key,k ∉ seen s := by
  induction l generalizing s with
  | nil => simp
  | cons a l ih =>
    rw [List.foldl_cons,ih,h,List.forall_mem_cons]
    cases hk : key a with
    | none =>
      have hs (k : κ) : k ∈ seen (f s a) ↔ k ∈ seen s := by simp [hseen,hk]
      simp only [List.filterMap_cons_none hk,hs]
      grind
    | some k' =>
      have hs (k : κ) : k ∈ seen (f s a) ↔ k ∈ seen s ∨ k'=k := by simp [hseen,hk]
      simp only [List.filterMap_cons_some hk,hs,List.nodup_cons,List.forall_mem_cons]
      grind

/-- A pass that counts the items of a kind. -/
theorem foldl_count {count : σ → Nat} {q : α → Bool}
    (h : ∀ s a,count (f s a)=if q a then count s+1 else count s) (l : List α) (s : σ) :
    count (l.foldl f s)=count s+l.countP q := by
  induction l generalizing s with
  | nil => simp
  | cons a l ih =>
    rw [List.foldl_cons,ih,h]
    cases hq : q a with
    | true => simp [hq,Nat.add_comm,Nat.add_left_comm]
    | false => simp [hq]

end Pass

end CompilerFabric.Base
