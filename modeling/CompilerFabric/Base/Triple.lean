import CompilerFabric.Base.Action

namespace CompilerFabric.Base.Action

variable {σ ε α β : Type} {P S I : σ → Prop} {Q Q' : α → σ → Prop} {E E' : σ → Prop}

/-- From a state with `P`, a success of `x` leaves `Q` and a refusal leaves `E`. -/
def Triple (P : σ → Prop) (x : Action σ ε α) (Q : α → σ → Prop) (E : σ → Prop) : Prop :=
  ∀ s,P s → (∀ a t,x s=(.ok a,t) → Q a t) ∧ ∀ e t,x s=(.error e,t) → E t

namespace Triple

theorem pure {a : α} (h : ∀ s,P s → Q a s) :
    Triple P (Pure.pure a : Action σ ε α) Q E := by
  intro s hs
  constructor
  · intro b t hb
    cases hb
    exact h s hs
  · intro e t he
    cases he

theorem get {Q : σ → σ → Prop} (h : ∀ s,P s → Q s s) :
    Triple P (Action.get : Action σ ε σ) Q E := by
  intro s hs
  constructor
  · intro b t hb
    cases hb
    exact h s hs
  · intro e t he
    cases he

theorem modify {f : σ → σ} (h : ∀ s,P s → S (f s)) :
    Triple P (Action.modify f : Action σ ε Unit) (fun _ => S) E := by
  intro s hs
  constructor
  · intro b t hb
    cases hb
    exact h s hs
  · intro e t he
    cases he

theorem fail {e : ε} (h : ∀ s,P s → E s) : Triple P (Action.fail e : Action σ ε α) Q E := by
  intro s hs
  constructor
  · intro b t hb
    cases hb
  · intro e t he
    cases he
    exact h s hs

theorem ofExcept {r : Except ε α} (hok : ∀ a s,r=.ok a → P s → Q a s)
    (he : ∀ e s,r=.error e → P s → E s) :
    Triple P (Action.ofExcept r : Action σ ε α) Q E := by
  intro s hs
  constructor
  · intro a t ht
    have ⟨hr,heq⟩ := ofExcept_eq_ok.1 ht
    exact heq ▸ hok a s hr hs
  · intro e t ht
    rw [ofExcept_apply,Prod.mk.injEq] at ht
    exact ht.2 ▸ he e s ht.1 hs

/-- A check that passes. -/
theorem passed {r : Except ε α} {a : α} (h : r=.ok a) :
    Triple P (Action.ofExcept r : Action σ ε α) (fun b s => b=a ∧ P s) E := by
  subst h
  refine .ofExcept (fun b s hb hs => ⟨(Except.ok.inj hb).symm,hs⟩) fun e s he _ => ?_
  cases he

theorem bind {x : Action σ ε α} {f : α → Action σ ε β} {R : β → σ → Prop} (hx : Triple P x Q E)
    (hf : ∀ a,Triple (Q a) (f a) R E) : Triple P (x >>= f) R E := by
  intro s hs
  have ⟨hok,he⟩ := hx s hs
  constructor
  · intro b u hb
    have ⟨a,t,ht,hu⟩ := seq_eq_ok.1 hb
    exact (hf a t (hok a t ht)).1 b u hu
  · intro e u hu
    rcases seq_eq hu with ⟨e',ht,_⟩ | ⟨a,t,ht,hu⟩
    · exact he e' u ht
    · exact (hf a t (hok a t ht)).2 e u hu

/-- A first part whose result is known. -/
theorem bind_eq {x : Action σ ε α} {f : α → Action σ ε β} {R : β → σ → Prop} {a : α}
    (hx : Triple P x (fun b s => b=a ∧ S s) E) (hf : Triple S (f a) R E) :
    Triple P (x >>= f) R E := by
  refine hx.bind fun b s hs => ?_
  rw [hs.1]
  exact hf s hs.2

theorem mono {x : Action σ ε α} (h : Triple P x Q E) (hP : ∀ s,S s → P s)
    (hQ : ∀ a s,Q a s → Q' a s) (hE : ∀ s,E s → E' s) : Triple S x Q' E' := by
  intro s hs
  have ⟨hok,he⟩ := h s (hP s hs)
  exact ⟨fun a t ht => hQ a t (hok a t ht),fun e t ht => hE t (he e t ht)⟩

/-- A fact that holds of the state `x` starts from, or of no state. -/
theorem of_pre {x : Action σ ε α} {p : Prop} (hp : ∀ s,P s → p) (h : p → Triple P x Q E) :
    Triple P x Q E :=
  fun s hs => h (hp s hs) s hs

/-- What is left after each element is what the rest of the list starts from. -/
theorem forEach {I : List β → σ → Prop} {f : β → Action σ ε Unit}
    (h : ∀ x xs,Triple (I (x::xs)) (f x) (fun _ => I xs) E) (xs : List β) :
    Triple (I xs) (Action.forEach f xs) (fun _ => I []) E := by
  induction xs with
  | nil => exact pure fun _ hs => hs
  | cons x xs ih => exact (h x xs).bind fun _ => ih

end Triple

end CompilerFabric.Base.Action
