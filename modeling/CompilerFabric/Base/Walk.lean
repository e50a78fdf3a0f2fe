import Mathlib.Algebra.Order.Ring.Nat
import Mathlib.Data.List.Chain
import Mathlib.Tactic.Common

namespace CompilerFabric.Base

section KeepLast

variable {α : Type} {n : Nat} {xs ys : List α}

/-- The newest `n`: what a log of bounded length still holds. -/
def keepLast (n : Nat) (xs : List α) : List α := xs.drop (xs.length-n)

theorem length_keepLast_le : (keepLast n xs).length ≤ n := by
  simp only [keepLast,List.length_drop]
  omega

theorem keepLast_of_length_le (h : xs.length ≤ n) : keepLast n xs=xs := by
  simp [keepLast,Nat.sub_eq_zero_of_le h]

/-- Trimming early loses nothing that trimming late would keep. -/
theorem keepLast_append_of_keepLast :
    keepLast n (keepLast n xs++ys)=keepLast n (xs++ys) := by
  by_cases h : xs.length ≤ n
  · rw [keepLast_of_length_le h]
  · simp only [keepLast,List.length_append,List.length_drop,List.drop_append,List.drop_drop]
    congr 1
    · congr 1
      omega
    · congr 1
      omega

end KeepLast

section Search

variable {α : Type} {p q : α → Bool} {l : List α}

/-- Two searches stop at the same place when the weaker test never fires ahead of the other. -/
theorem find?_eq_find?_iff (h : ∀ x,q x → p x) :
    l.find? p=l.find? q ↔ ∀ x ∈ l.takeWhile (!q ·),p x=false := by
  induction l with
  | nil => simp
  | cons a l ih =>
    cases hq : q a with
    | true => simp [hq,h a hq]
    | false =>
      cases hp : p a with
      | false => simp [hq,hp,ih]
      | true =>
        have hne : some a ≠ l.find? q := by
          intro he
          have ha := List.find?_some he.symm
          rw [hq] at ha
          cases ha
        simp [hq,hp,hne]

end Search

section Walk

variable {σ ε : Type} {src dst : ε → σ} {legal : σ → σ → Prop} {s t u x y : σ} {es fs : List ε}
  {C : σ → Prop}

/-- The edges of a path taken through the states of a machine, each of them legal. -/
inductive Walk (src dst : ε → σ) (legal : σ → σ → Prop) : σ → List ε → σ → Prop
  | nil (s : σ) : Walk src dst legal s [] s
  | cons {e : ε} {es : List ε} {t : σ} (he : legal (src e) (dst e))
      (h : Walk src dst legal (dst e) es t) : Walk src dst legal (src e) (e::es) t

namespace Walk

theorem single {e : ε} (he : legal (src e) (dst e)) : Walk src dst legal (src e) [e] (dst e) :=
  .cons he (.nil _)

theorem append (h : Walk src dst legal s es t) (h' : Walk src dst legal t fs u) :
    Walk src dst legal s (es++fs) u := by
  induction h with
  | nil => exact h'
  | cons he _ ih => exact .cons he (ih h')

/-- Edges never leave a set no legal edge leaves. -/
theorem stays (closed : ∀ a b,legal a b → C a → C b) (h : Walk src dst legal s es t) (hs : C s) :
    ∀ e ∈ es,C (dst e) := by
  induction h with
  | nil => intro e he; cases he
  | cons he h ih =>
    have hd := closed _ _ he hs
    intro e hm
    rcases List.mem_cons.1 hm with rfl | hm
    · exact hd
    · exact ih hd e hm

theorem ends (closed : ∀ a b,legal a b → C a → C b) (h : Walk src dst legal s es t) (hs : C s) :
    C t := by
  induction h with
  | nil => exact hs
  | cons he _ ih => exact ih (closed _ _ he hs)

theorem split (h : Walk src dst legal s (es++fs) u) :
    ∃ t,Walk src dst legal s es t ∧ Walk src dst legal t fs u := by
  induction es generalizing s with
  | nil => exact ⟨s,.nil s,h⟩
  | cons e es ih =>
    cases h with
    | cons he h =>
      have ⟨t,h₁,h₂⟩ := ih h
      exact ⟨t,.cons he h₁,h₂⟩

theorem legal_of_mem (h : Walk src dst legal s es t) : ∀ e ∈ es,legal (src e) (dst e) := by
  induction h with
  | nil => simp
  | cons he _ ih => exact List.forall_mem_cons.2 ⟨he,ih⟩

theorem src_of_head (h : Walk src dst legal s es t) {e : ε} (he : es.head?=some e) : src e=s := by
  cases h with
  | nil => cases he
  | cons =>
    cases he
    rfl

theorem isChain (h : Walk src dst legal s es t) : es.IsChain fun e f => dst e=src f := by
  induction h with
  | nil => exact .nil
  | cons _ h ih => exact List.isChain_cons.2 ⟨fun f hf => (h.src_of_head hf).symm,ih⟩

theorem dst_of_getLast (h : Walk src dst legal s es t) {e : ε} (he : es.getLast?=some e) :
    dst e=t := by
  obtain ⟨init,rfl⟩ := List.getLast?_eq_some_iff.1 he
  obtain ⟨u,_,h⟩ := h.split
  generalize hl : [e]=l at h
  cases h with
  | nil => cases hl
  | cons _ h =>
    cases hl
    generalize dst e=d at h
    cases h
    rfl

end Walk

/-- `x` is entered from `y` only, and once left it is out of reach: what follows it is in `C`,
which is never left and does not hold `x`. -/
structure OnceOnly (legal : σ → σ → Prop) (x y : σ) (C : σ → Prop) : Prop where
  entry : ∀ a,legal a x → a=y
  exit : ∀ b,legal x b → C b
  closed : ∀ a b,legal a b → C a → C b
  out : ¬C x

namespace OnceOnly

variable (g : OnceOnly legal x y C)
include g

theorem not_entered (h : Walk src dst legal s es t) (hs : C s) : ∀ e ∈ es,dst e ≠ x := by
  intro e he hx
  exact g.out (hx ▸ h.stays g.closed hs e he)

theorem not_entered_from_self (h : Walk src dst legal x es t) : ∀ e ∈ es,dst e ≠ x := by
  intro e he hx
  cases h with
  | nil => cases he
  | cons hl h =>
    have hd := g.exit _ hl
    rcases List.mem_cons.1 he with rfl | he
    · exact g.out (hx ▸ hd)
    · exact g.not_entered h hd e he hx

theorem entered_from (h : Walk src dst legal s es t) {e : ε} (he : e ∈ es) (hx : dst e=x) :
    src e=y := by
  induction h with
  | nil => cases he
  | cons hl h ih =>
    rcases List.mem_cons.1 he with rfl | he
    · exact g.entry _ (hx ▸ hl)
    · exact ih he

theorem countP_le_one [DecidableEq σ] (h : Walk src dst legal s es t) :
    es.countP (dst · = x) ≤ 1 := by
  induction h with
  | nil => simp
  | @cons e es t hl h ih =>
    by_cases hx : dst e=x
    · have hrest : es.countP (dst · = x)=0 := by
        rw [List.countP_eq_zero]
        intro e' he'
        simpa using g.not_entered_from_self (hx ▸ h) e' he'
      rw [List.countP_cons,hrest]
      split <;> omega
    · rw [List.countP_cons]
      simpa [hx] using ih

theorem not_entered_after {e : ε} (h : Walk src dst legal s (es++e::fs) t) (he : C (dst e)) :
    ∀ e' ∈ fs,dst e' ≠ x := by
  have ⟨u,_,h'⟩ := h.split
  cases h' with
  | cons _ h' => exact g.not_entered h' he

end OnceOnly

end Walk

end CompilerFabric.Base
