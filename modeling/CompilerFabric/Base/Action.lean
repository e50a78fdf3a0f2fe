import Mathlib.Algebra.Order.Ring.Nat
import Mathlib.Order.Defs.Unbundled
import Mathlib.Tactic.Common

namespace CompilerFabric.Base

/-- A step of a stateful program that may be refused. The state a refusal leaves behind is
kept: nothing is rolled back. -/
def Action (σ ε α : Type) := σ → Except ε α × σ

namespace Action

variable {σ ε α β : Type}

instance : Monad (Action σ ε) where
  pure a := fun s => (.ok a,s)
  bind x f := fun s => match x s with
    | (.ok a,s) => f a s
    | (.error e,s) => (.error e,s)

def get : Action σ ε σ := fun s => (.ok s,s)

def modify (f : σ → σ) : Action σ ε Unit := fun s => (.ok (),f s)

def fail (e : ε) : Action σ ε α := fun s => (.error e,s)

def ofExcept (r : Except ε α) : Action σ ε α := fun s => (r,s)

/-- Run `x` and go on with its outcome whatever it is. -/
def attempt (x : Action σ ε α) : Action σ ε (Except ε α) := fun s => (.ok (x s).1,(x s).2)

def forEach (f : β → Action σ ε Unit) : List β → Action σ ε Unit
  | [] => pure ()
  | x::xs => f x >>= fun _ => forEach f xs

@[simp] theorem pure_apply (a : α) (s : σ) : (pure a : Action σ ε α) s=(.ok a,s) := rfl

@[simp] theorem get_apply (s : σ) : (get : Action σ ε σ) s=(.ok s,s) := rfl

@[simp] theorem modify_apply (f : σ → σ) (s : σ) :
    (modify f : Action σ ε Unit) s=(.ok (),f s) := rfl

@[simp] theorem fail_apply (e : ε) (s : σ) : (fail e : Action σ ε α) s=(.error e,s) := rfl

@[simp] theorem ofExcept_apply (r : Except ε α) (s : σ) :
    (ofExcept r : Action σ ε α) s=(r,s) := rfl

@[simp] theorem attempt_apply (x : Action σ ε α) (s : σ) :
    attempt x s=(.ok (x s).1,(x s).2) := rfl

theorem bind_apply (x : Action σ ε α) (f : α → Action σ ε β) (s : σ) :
    (x >>= f) s=match x s with
      | (.ok a,s) => f a s
      | (.error e,s) => (.error e,s) := rfl

theorem bind_ok {x : Action σ ε α} {s t : σ} {a : α} (h : x s=(.ok a,t))
    (f : α → Action σ ε β) : (x >>= f) s=f a t := by
  rw [bind_apply,h]

theorem bind_error {x : Action σ ε α} {s t : σ} {e : ε} (h : x s=(.error e,t))
    (f : α → Action σ ε β) : (x >>= f) s=(.error e,t) := by
  rw [bind_apply,h]

/-- A sequence that succeeds went through both of its parts. -/
theorem seq_eq_ok {x : Action σ ε α} {f : α → Action σ ε β} {s u : σ} {b : β} :
    (x >>= f) s=(.ok b,u) ↔ ∃ a t,x s=(.ok a,t) ∧ f a t=(.ok b,u) := by
  rw [bind_apply]
  cases x s with
  | mk r t =>
    cases r with
    | error e => simp
    | ok a => simp

/-- A sequence ends in its first part, refused, or in the second. -/
theorem seq_eq {x : Action σ ε α} {f : α → Action σ ε β} {s u : σ} {r : Except ε β}
    (h : (x >>= f) s=(r,u)) :
    (∃ e,x s=(.error e,u) ∧ r=.error e) ∨ ∃ a t,x s=(.ok a,t) ∧ f a t=(r,u) := by
  cases hx : x s with
  | mk result t =>
    cases result with
    | error e =>
      rw [bind_error hx] at h
      cases h
      exact .inl ⟨e,rfl,rfl⟩
    | ok a =>
      rw [bind_ok hx] at h
      exact .inr ⟨a,t,rfl,h⟩

theorem ofExcept_eq_ok {r : Except ε α} {s t : σ} {a : α} :
    (ofExcept r : Action σ ε α) s=(.ok a,t) ↔ r=.ok a ∧ s=t := by
  rw [ofExcept_apply,Prod.mk.injEq]

/-- The state a sequence leaves is the one its first part leaves in failing, or the one the
second leaves. -/
theorem bind_state {x : Action σ ε α} {f : α → Action σ ε β} {s : σ} {Q : σ → Prop}
    (hx : ∀ e t,x s=(.error e,t) → Q t) (hf : ∀ a t,x s=(.ok a,t) → Q (f a t).2) :
    Q ((x >>= f) s).2 := by
  cases hxs : x s with
  | mk r t =>
    cases r with
    | error e =>
      rw [bind_error hxs]
      exact hx e t hxs
    | ok a =>
      rw [bind_ok hxs]
      exact hf a t hxs

/-- Whatever its outcome, `x` moves the state along `R`. -/
def Within (R : σ → σ → Prop) (x : Action σ ε α) : Prop := ∀ s,R s (x s).2

namespace Within

variable {R S : σ → σ → Prop}

/-- One state at a time: the continuation is asked for where `x` really hands on to it. -/
theorem bind_at [IsTrans σ R] {x : Action σ ε α} {f : α → Action σ ε β} {s : σ}
    (hx : R s (x s).2) (hf : ∀ a t,x s=(.ok a,t) → R t (f a t).2) : R s ((x >>= f) s).2 := by
  refine bind_state ?_ ?_
  · intro e t ht
    rwa [ht] at hx
  · intro a t ht
    rw [ht] at hx
    exact IsTrans.trans _ _ _ hx (hf a t ht)

theorem bind [IsTrans σ R] {x : Action σ ε α} {f : α → Action σ ε β} (hx : Within R x)
    (hf : ∀ a,Within R (f a)) : Within R (x >>= f) :=
  fun s => bind_at (hx s) fun a t _ => hf a t

theorem modify {f : σ → σ} (h : ∀ s,R s (f s)) :
    Within R (Action.modify f : Action σ ε Unit) := h

theorem attempt {x : Action σ ε α} (h : Within R x) : Within R (Action.attempt x) := h

theorem mono {x : Action σ ε α} (hx : Within R x) (h : ∀ s t,R s t → S s t) : Within S x :=
  fun s => h _ _ (hx s)

theorem get_at {f : σ → Action σ ε β} {s : σ} (h : R s (f s s).2) :
    R s ((Action.get >>= f) s).2 := h

variable [IsPreorder σ R]

/-- A check either refuses and leaves the state, or goes on from it. -/
theorem ofExcept_at {r : Except ε α} {f : α → Action σ ε β} {s : σ}
    (h : ∀ a,r=.ok a → R s (f a s).2) : R s ((Action.ofExcept r >>= f) s).2 := by
  refine bind_state ?_ ?_
  · intro e t ht
    cases (congrArg Prod.snd ht : s=t)
    exact Std.Refl.refl s
  · intro a t ht
    have ⟨hr,he⟩ := ofExcept_eq_ok.1 ht
    subst he
    exact h a hr

theorem pure (a : α) : Within R (Pure.pure a : Action σ ε α) := fun s => Std.Refl.refl s

theorem get : Within R (Action.get : Action σ ε σ) := fun s => Std.Refl.refl s

theorem fail (e : ε) : Within R (Action.fail e : Action σ ε α) := fun s => Std.Refl.refl s

theorem ofExcept (r : Except ε α) : Within R (Action.ofExcept r : Action σ ε α) :=
  fun s => Std.Refl.refl s

theorem forEach {f : β → Action σ ε Unit} (h : ∀ x,Within R (f x)) (xs : List β) :
    Within R (Action.forEach f xs) := by
  induction xs with
  | nil => exact pure ()
  | cons x xs ih => exact bind (h x) fun _ => ih

end Within

/-- From a state where `I` holds, `x` moves along `R` whatever its outcome. -/
def WithinFrom (I : σ → Prop) (R : σ → σ → Prop) (x : Action σ ε α) : Prop := ∀ s,I s → R s (x s).2

namespace WithinFrom

variable {I : σ → Prop} {R : σ → σ → Prop}

theorem of_within {x : Action σ ε α} (h : Within R x) : WithinFrom I R x := fun s _ => h s

/-- What `R` keeps may be used again after the first part. -/
theorem bind [IsTrans σ R] (hI : ∀ s t,R s t → I s → I t) {x : Action σ ε α}
    {f : α → Action σ ε β} (hx : WithinFrom I R x) (hf : ∀ a,WithinFrom I R (f a)) :
    WithinFrom I R (x >>= f) := by
  intro s hs
  have h := hx s hs
  refine Within.bind_at h fun a t ht => hf a t ?_
  rw [ht] at h
  exact hI s t h hs

theorem forEach [IsPreorder σ R] (hI : ∀ s t,R s t → I s → I t) {f : β → Action σ ε Unit}
    {xs : List β} (h : ∀ x ∈ xs,WithinFrom I R (f x)) : WithinFrom I R (Action.forEach f xs) := by
  induction xs with
  | nil => exact of_within (.pure ())
  | cons x xs ih =>
    have ⟨hx,hxs⟩ := List.forall_mem_cons.1 h
    exact bind hI hx fun _ => ih hxs

end WithinFrom

/-- `x` is refused in no state. -/
def Total (x : Action σ ε α) : Prop := ∀ s,∃ a t,x s=(.ok a,t)

namespace Total

theorem pure (a : α) : Total (Pure.pure a : Action σ ε α) := fun s => ⟨a,s,rfl⟩

theorem get : Total (Action.get : Action σ ε σ) := fun s => ⟨s,s,rfl⟩

theorem modify (f : σ → σ) : Total (Action.modify f : Action σ ε Unit) := fun s => ⟨(),f s,rfl⟩

theorem bind {x : Action σ ε α} {f : α → Action σ ε β} (hx : Total x) (hf : ∀ a,Total (f a)) :
    Total (x >>= f) := by
  intro s
  have ⟨a,t,h⟩ := hx s
  have ⟨b,u,h'⟩ := hf a t
  exact ⟨b,u,by rw [bind_ok h,h']⟩

theorem forEach {f : β → Action σ ε Unit} (h : ∀ x,Total (f x)) (xs : List β) :
    Total (Action.forEach f xs) := by
  induction xs with
  | nil => exact pure ()
  | cons x xs ih => exact bind (h x) fun _ => ih

end Total

end Action

end CompilerFabric.Base
