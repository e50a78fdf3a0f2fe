import CompilerFabric.Runtime.Calls
import Mathlib.Logic.Function.Basic

namespace CompilerFabric

namespace IdAllocator

variable {tag : IdTag}

/-- From here on every draw gives the same identity. -/
def spent (a : IdAllocator tag) : Bool := a.counter=kMax

theorem spent_eq_false {a : IdAllocator tag} : a.spent=false ↔ a.counter ≠ kMax := by simp [spent]

theorem succ_toNat {c : UInt64} (h : c ≠ kMax) : (c+1).toNat=c.toNat+1 := by
  have hlt := c.toNat_lt
  have hne : c.toNat ≠ 2^64-1 := fun he => h (UInt64.toNat_inj.1 he)
  rw [UInt64.toNat_add,UInt64.toNat_one]
  omega

theorem le_drawn (a : IdAllocator tag) : a.counter.toNat ≤ a.next.1.value.toNat := by
  simp only [next]
  split
  · next h =>
    rw [h]
    exact Nat.zero_le _
  · exact Nat.le_refl _

theorem drawn_lt {a : IdAllocator tag} (h : a.next.2.spent=false) :
    a.next.1.value.toNat<a.next.2.counter.toNat := by
  have h := spent_eq_false.1 h
  simp only [next] at h ⊢
  generalize (if a.counter=0 then 1 else a.counter)=c at h ⊢
  by_cases hc : c=kMax
  · rw [if_pos hc] at h
    exact absurd hc h
  · rw [if_neg hc,succ_toNat hc]
    exact Nat.lt_succ_self _

theorem drawn_le (a : IdAllocator tag) : a.next.1.value.toNat ≤ a.next.2.counter.toNat := by
  simp only [next]
  generalize (if a.counter=0 then 1 else a.counter)=c
  split
  · exact Nat.le_refl _
  · next hc =>
    rw [succ_toNat hc]
    exact Nat.le_succ _

theorem le_next (a : IdAllocator tag) : a.counter.toNat ≤ a.next.2.counter.toNat :=
  Nat.le_trans a.le_drawn a.drawn_le

theorem le_observe (a : IdAllocator tag) (id : StrongId tag) :
    a.counter.toNat ≤ (a.observe id).counter.toNat := by
  unfold observe
  split
  · next h =>
    have h := UInt64.le_iff_toNat_le.1 h
    split
    · next hk => rwa [← hk]
    · next hk =>
      show _ ≤ (id.value+1).toNat
      rw [succ_toNat hk]
      exact Nat.le_succ_of_le h
  · exact Nat.le_refl _

theorem lt_observe {a : IdAllocator tag} {id : StrongId tag} (h : (a.observe id).spent=false) :
    id.value.toNat<(a.observe id).counter.toNat := by
  have h := spent_eq_false.1 h
  unfold observe at h ⊢
  split
  · next hle =>
    rw [if_pos hle] at h
    by_cases hk : id.value=kMax
    · rw [if_pos hk] at h
      exact absurd rfl h
    · rw [if_neg hk]
      show _<(id.value+1).toNat
      rw [succ_toNat hk]
      exact Nat.lt_succ_self _
  · next hle =>
    have hlt := UInt64.not_le.1 hle
    exact UInt64.lt_iff_toNat_lt.1 hlt

/-- The last value is not left again. -/
theorem unspent_of_le {a b : IdAllocator tag} (h : a.counter.toNat ≤ b.counter.toNat)
    (hb : b.spent=false) : a.spent=false := by
  rw [spent_eq_false] at hb ⊢
  intro ha
  apply hb
  rw [ha] at h
  have hlt := b.counter.toNat_lt
  have hk : kMax.toNat=2^64-1 := rfl
  apply UInt64.toNat_inj.1
  omega

end IdAllocator

/-- What a phase record holds in the tables that all sessions share. -/
structure PhaseHolding where
  id : CompilerPhaseId
  lease : LeaseId
  outputs : List IntermediateArtifactId

@[ext] structure Holding where
  id : CompilerSessionId
  intermediates : List IntermediateArtifactId
  phases : UInt64 → Option PhaseHolding

/-- Which session holds which phase, lease and artifact, and where the next identities come
from. What is registered under an identity is left out. -/
@[ext] structure Estate where
  sessions : UInt64 → Option Holding
  /-- The session a lease was granted to. -/
  leases : UInt64 → Option CompilerSessionId
  /-- The artifacts that `revoke_phase_outputs` finds under a phase. -/
  index : UInt64 → List IntermediateArtifactId
  sessionIds : IdAllocator .session
  phaseIds : IdAllocator .phase
  leaseIds : IdAllocator .lease
  artifactIds : IdAllocator .intermediate

namespace Estate

def spent (e : Estate) : Bool :=
  e.sessionIds.spent || e.phaseIds.spent || e.leaseIds.spent || e.artifactIds.spent

/-- The session has a phase that holds `q`. -/
def Has (e : Estate) (t : CompilerSessionId) (q : PhaseHolding) : Prop :=
  ∃ h i,e.sessions t.value=some h ∧ h.phases i=some q

/-- A phase of the session produced the artifact. -/
def Made (e : Estate) (t : CompilerSessionId) (id : IntermediateArtifactId) : Prop :=
  ∃ h,e.sessions t.value=some h ∧ id ∈ h.intermediates

def Cites (e : Estate) (t : CompilerSessionId) (i : UInt64) : Prop :=
  ∃ q,e.Has t q ∧ q.lease.value=i

/-- The artifacts an operation on the session can name: outputs of its phases, and whatever is
indexed under one of them. -/
def Reaches (e : Estate) (t : CompilerSessionId) (id : IntermediateArtifactId) : Prop :=
  ∃ q,e.Has t q ∧ (id ∈ q.outputs ∨ id ∈ e.index q.id.value)

/-- The phase of the session at `k` is `id`. -/
def At (e : Estate) (t : CompilerSessionId) (k : UInt64) (id : CompilerPhaseId) : Prop :=
  ∃ h q,e.sessions t.value=some h ∧ h.phases k=some q ∧ q.id=id

/-- The sessions of `C` share no phase, no lease and no artifact, and everything registered lies
below its allocator. -/
structure Apart (C : List CompilerSessionId) (e : Estate) : Prop where
  below : ∀ i h,e.sessions i=some h → i.toNat<e.sessionIds.counter.toNat
  known : ∀ t ∈ C,∃ h,e.sessions t.value=some h ∧ h.id=t
  granted : ∀ i x,e.leases i=some x → i ≠ 0 ∧ i.toNat<e.leaseIds.counter.toNat
  cited : ∀ t ∈ C,∀ q,e.Has t q → (q.lease.present → q.lease.value.toNat<e.leaseIds.counter.toNat) ∧
    ∀ x,e.leases q.lease.value=some x → x=t
  phases : ∀ t ∈ C,∀ q,e.Has t q → q.id.value.toNat<e.phaseIds.counter.toNat
  phaseApart : ∀ s ∈ C,∀ t ∈ C,∀ p q,e.Has s p → e.Has t q → p.id=q.id → s=t
  indexed : ∀ i,∀ id ∈ e.index i,id.value.toNat<e.artifactIds.counter.toNat
  made : ∀ t ∈ C,∀ id,e.Made t id → id.value.toNat<e.artifactIds.counter.toNat
  madeApart : ∀ s ∈ C,∀ t ∈ C,∀ id,e.Made s id → e.Made t id → s=t
  outputs : ∀ t ∈ C,∀ q,e.Has t q → ∀ id ∈ q.outputs,e.Made t id
  /-- What a session made is indexed under its own phases only. -/
  index : ∀ t ∈ C,∀ id,e.Made t id → ∀ i,id ∈ e.index i → ∃ q,e.Has t q ∧ q.id.value=i

/-- A reservation: the phase at `k` takes a new lease and starts without outputs. -/
def reserved (e : Estate) (who : CompilerSessionId) (h : Holding) (k : UInt64)
    (q : PhaseHolding) : Estate :=
  let lease := e.leaseIds.next.1
  { e with
    sessions := Function.update e.sessions who.value (some { h with
      phases := Function.update h.phases k (some { q with lease,outputs := [] }) })
    leases := if (e.leases lease.value).isSome then e.leases
      else Function.update e.leases lease.value (some h.id)
    leaseIds := e.leaseIds.next.2 }

/-- A completion registers one output of the phase at `k`. -/
def registered (e : Estate) (who : CompilerSessionId) (h : Holding) (k : UInt64)
    (q : PhaseHolding) : Estate :=
  let id := e.artifactIds.next.1
  { e with
    sessions := Function.update e.sessions who.value (some { h with
      intermediates := h.intermediates++[id]
      phases := Function.update h.phases k (some { q with outputs := q.outputs++[id] }) })
    index := Function.update e.index q.id.value (e.index q.id.value++[id])
    artifactIds := e.artifactIds.next.2 }

/-- What the operations on one session do to the holdings. -/
inductive Moves (who : CompilerSessionId) : Estate → Estate → Prop
  | refl (e : Estate) : Moves who e e
  | reserve {e : Estate} {h : Holding} {k : UInt64} {q : PhaseHolding}
      (hs : e.sessions who.value=some h) (hq : h.phases k=some q) :
      Moves who e (e.reserved who h k q)
  | register {e : Estate} {h : Holding} {k : UInt64} {q : PhaseHolding}
      (hs : e.sessions who.value=some h) (hq : h.phases k=some q) :
      Moves who e (e.registered who h k q)
  | trans {e e' e'' : Estate} (h : Moves who e e') (h' : Moves who e' e'') : Moves who e e''

section Write

variable {e e' : Estate} {who t : CompilerSessionId} {h h' : Holding} {k : UInt64}
  {q q' x : PhaseHolding} {id : IntermediateArtifactId}

theorem write_has (hs : e.sessions who.value=some h)
    (hw : e'.sessions=Function.update e.sessions who.value (some h'))
    (hp : h'.phases=Function.update h.phases k (some q')) (hx : e'.Has t x) :
    e.Has t x ∨ t=who ∧ x=q' := by
  have ⟨g,i,hg,hi⟩ := hx
  rw [hw] at hg
  by_cases ht : t=who
  · subst ht
    rw [Function.update_self] at hg
    cases hg
    rw [hp] at hi
    by_cases hk : i=k
    · subst hk
      rw [Function.update_self] at hi
      exact .inr ⟨rfl,(Option.some.inj hi).symm⟩
    · rw [Function.update_of_ne hk] at hi
      exact .inl ⟨h,i,hs,hi⟩
  · rw [Function.update_of_ne fun he => ht (StrongId.ext he)] at hg
    exact .inl ⟨g,i,hg,hi⟩

theorem has_write (hs : e.sessions who.value=some h) (hq : h.phases k=some q)
    (hw : e'.sessions=Function.update e.sessions who.value (some h'))
    (hp : h'.phases=Function.update h.phases k (some q')) (hx : e.Has t x) :
    e'.Has t x ∨ t=who ∧ x=q ∧ e'.Has t q' := by
  have ⟨g,i,hg,hi⟩ := hx
  by_cases ht : t=who
  · subst ht
    have hs' : e'.sessions t.value=some h' := by rw [hw,Function.update_self]
    rw [hs] at hg
    cases hg
    by_cases hk : i=k
    · subst hk
      rw [hq] at hi
      refine .inr ⟨rfl,(Option.some.inj hi).symm,h',i,hs',?_⟩
      rw [hp,Function.update_self]
    · refine .inl ⟨h',i,hs',?_⟩
      rw [hp,Function.update_of_ne hk]
      exact hi
  · refine .inl ⟨g,i,?_,hi⟩
    rw [hw,Function.update_of_ne fun he => ht (StrongId.ext he)]
    exact hg

theorem write_made (hs : e.sessions who.value=some h)
    (hw : e'.sessions=Function.update e.sessions who.value (some h')) (hx : e'.Made t id) :
    e.Made t id ∨ t=who ∧ id ∈ h'.intermediates := by
  have ⟨g,hg,hi⟩ := hx
  rw [hw] at hg
  by_cases ht : t=who
  · subst ht
    rw [Function.update_self] at hg
    cases hg
    exact .inr ⟨rfl,hi⟩
  · rw [Function.update_of_ne fun he => ht (StrongId.ext he)] at hg
    exact .inl ⟨g,hg,hi⟩

theorem made_write (hs : e.sessions who.value=some h)
    (hw : e'.sessions=Function.update e.sessions who.value (some h'))
    (hi : h.intermediates ⊆ h'.intermediates) (hx : e.Made t id) : e'.Made t id := by
  have ⟨g,hg,hm⟩ := hx
  by_cases ht : t=who
  · subst ht
    rw [hs] at hg
    cases hg
    exact ⟨h',by rw [hw,Function.update_self],hi hm⟩
  · refine ⟨g,?_,hm⟩
    rw [hw,Function.update_of_ne fun he => ht (StrongId.ext he)]
    exact hg

/-- A write keeps the sessions that are there under their identities. -/
theorem write_known (hs : e.sessions who.value=some h)
    (hw : e'.sessions=Function.update e.sessions who.value (some h')) (hid : h'.id=h.id)
    (hx : ∃ g,e.sessions t.value=some g ∧ g.id=t) : ∃ g,e'.sessions t.value=some g ∧ g.id=t := by
  have ⟨g,hg,hi⟩ := hx
  by_cases ht : t=who
  · subst ht
    rw [hs] at hg
    cases hg
    exact ⟨h',by rw [hw,Function.update_self],hid.trans hi⟩
  · refine ⟨g,?_,hi⟩
    rw [hw,Function.update_of_ne fun he => ht (StrongId.ext he)]
    exact hg

theorem write_below (hs : e.sessions who.value=some h)
    (hw : e'.sessions=Function.update e.sessions who.value (some h')) {i : UInt64} {g : Holding}
    (hx : e'.sessions i=some g) : ∃ g,e.sessions i=some g := by
  rw [hw] at hx
  by_cases hi : i=who.value
  · exact ⟨h,hi ▸ hs⟩
  · rw [Function.update_of_ne hi] at hx
    exact ⟨g,hx⟩

end Write

variable {C : List CompilerSessionId} {e e' : Estate} {who : CompilerSessionId} {h : Holding}
  {k : UInt64} {q : PhaseHolding}

theorem reserved_leases (e : Estate) (who : CompilerSessionId) (h : Holding) (k : UInt64)
    (q : PhaseHolding) {i : UInt64} {x : CompilerSessionId}
    (hx : (e.reserved who h k q).leases i=some x) :
    e.leases i=some x ∨ i=e.leaseIds.next.1.value ∧ x=h.id := by
  simp only [reserved] at hx
  split at hx
  · exact .inl hx
  · by_cases hi : i=e.leaseIds.next.1.value
    · subst hi
      rw [Function.update_self] at hx
      exact .inr ⟨rfl,(Option.some.inj hx).symm⟩
    · rw [Function.update_of_ne hi] at hx
      exact .inl hx

theorem Apart.reserved (ha : e.Apart C) (hs : e.sessions who.value=some h)
    (hq : h.phases k=some q) (hu : e.leaseIds.next.2.spent=false) :
    (e.reserved who h k q).Apart C := by
  have hlt := IdAllocator.drawn_lt hu
  have hle := e.leaseIds.le_next
  have hd := e.leaseIds.le_drawn
  have hpos : e.leaseIds.next.1.present := Runtime.next_present e.leaseIds
  have has {t : CompilerSessionId} {x : PhaseHolding} (hx : (e.reserved who h k q).Has t x) :
      ∃ y,e.Has t y ∧ x.id=y.id ∧ (x=y ∨ t=who ∧ x.lease=e.leaseIds.next.1 ∧ x.outputs=[]) := by
    rcases write_has hs rfl rfl hx with hx | ⟨ht,he⟩
    · exact ⟨x,hx,rfl,.inl rfl⟩
    · subst ht he
      exact ⟨q,⟨h,k,hs,hq⟩,rfl,.inr ⟨rfl,rfl,rfl⟩⟩
  have made {t : CompilerSessionId} {id : IntermediateArtifactId}
      (hx : (e.reserved who h k q).Made t id) : e.Made t id := by
    rcases write_made hs rfl hx with hx | ⟨ht,hx⟩
    · exact hx
    · exact ⟨h,ht ▸ hs,hx⟩
  constructor
  · intro i g hg
    obtain ⟨g,hg⟩ := write_below hs rfl hg
    exact ha.below i g hg
  · intro t ht
    exact write_known hs rfl rfl (ha.known t ht)
  · intro i x hx
    rcases e.reserved_leases who h k q hx with hx | ⟨hi,_⟩
    · obtain ⟨hi,hl⟩ := ha.granted i x hx
      exact ⟨hi,Nat.lt_of_lt_of_le hl hle⟩
    · subst hi
      exact ⟨by simpa [StrongId.present] using hpos,hlt⟩
  · intro t ht x hx
    obtain ⟨y,hy,_,he⟩ := has hx
    obtain ⟨hb,hc⟩ := ha.cited t ht y hy
    rcases he with rfl | ⟨rfl,hl,_⟩
    · refine ⟨fun hp => Nat.lt_of_lt_of_le (hb hp) hle,?_⟩
      intro z hz
      rcases e.reserved_leases who h k q hz with hz | ⟨hi,_⟩
      · exact hc z hz
      · -- a lease that is cited lies below the one just drawn
        have hp : x.lease.present := by rw [StrongId.present,hi]; exact hpos
        have := hb hp
        rw [hi] at this
        omega
    · rw [hl]
      refine ⟨fun _ => hlt,?_⟩
      intro z hz
      rcases e.reserved_leases t h k q hz with hz | ⟨_,hz⟩
      · have := (ha.granted _ z hz).2
        omega
      · obtain ⟨g,hg,hid⟩ := ha.known t ht
        rw [hs] at hg
        cases hg
        exact hz.trans hid
  · intro t ht x hx
    obtain ⟨y,hy,hi,_⟩ := has hx
    rw [hi]
    exact ha.phases t ht y hy
  · intro s hs' t ht x y hx hy he
    obtain ⟨x',hx,hix,_⟩ := has hx
    obtain ⟨y',hy,hiy,_⟩ := has hy
    exact ha.phaseApart s hs' t ht x' y' hx hy (hix.symm.trans (he.trans hiy))
  · exact ha.indexed
  · intro t ht id hx
    exact ha.made t ht id (made hx)
  · intro s hs' t ht id hx hy
    exact ha.madeApart s hs' t ht id (made hx) (made hy)
  · intro t ht x hx id hid
    obtain ⟨y,hy,_,he⟩ := has hx
    rcases he with rfl | ⟨_,_,ho⟩
    · exact made_write hs rfl (fun _ h => h) (ha.outputs t ht x hy id hid)
    · rw [ho] at hid
      cases hid
  · intro t ht id hx i hi
    obtain ⟨y,hy,hk⟩ := ha.index t ht id (made hx) i hi
    rcases has_write hs hq (rfl : (e.reserved who h k q).sessions=_) rfl hy with hy | ⟨_,he,hy⟩
    · exact ⟨y,hy,hk⟩
    · exact ⟨_,hy,he ▸ hk⟩

theorem registered_index (e : Estate) (who : CompilerSessionId) (h : Holding) (k : UInt64)
    (q : PhaseHolding) {i : UInt64} {id : IntermediateArtifactId}
    (hx : id ∈ (e.registered who h k q).index i) :
    id ∈ e.index i ∨ i=q.id.value ∧ id=e.artifactIds.next.1 := by
  simp only [registered] at hx
  by_cases hi : i=q.id.value
  · subst hi
    rw [Function.update_self,List.mem_append,List.mem_singleton] at hx
    exact hx.imp_right fun h => ⟨rfl,h⟩
  · rw [Function.update_of_ne hi] at hx
    exact .inl hx

theorem Apart.registered (ha : e.Apart C) (hs : e.sessions who.value=some h)
    (hq : h.phases k=some q) (hu : e.artifactIds.next.2.spent=false) :
    (e.registered who h k q).Apart C := by
  have hlt := IdAllocator.drawn_lt hu
  have hle := e.artifactIds.le_next
  have hd := e.artifactIds.le_drawn
  have hq' : e.Has who q := ⟨h,k,hs,hq⟩
  have has {t : CompilerSessionId} {x : PhaseHolding} (hx : (e.registered who h k q).Has t x) :
      ∃ y,e.Has t y ∧ x.id=y.id ∧ x.lease=y.lease ∧ ∀ id ∈ x.outputs,id ∈ y.outputs ∨
        t=who ∧ id=e.artifactIds.next.1 := by
    rcases write_has hs rfl rfl hx with hx | ⟨ht,he⟩
    · exact ⟨x,hx,rfl,rfl,fun _ => .inl⟩
    · subst ht he
      refine ⟨q,hq',rfl,rfl,?_⟩
      intro id hid
      rw [List.mem_append,List.mem_singleton] at hid
      exact hid.imp_right fun h => ⟨rfl,h⟩
  have made {t : CompilerSessionId} {id : IntermediateArtifactId}
      (hx : (e.registered who h k q).Made t id) :
      e.Made t id ∨ t=who ∧ id=e.artifactIds.next.1 := by
    rcases write_made hs rfl hx with hx | ⟨ht,hx⟩
    · exact .inl hx
    · rw [List.mem_append,List.mem_singleton] at hx
      rcases hx with hx | hx
      · exact .inl ⟨h,ht ▸ hs,hx⟩
      · exact .inr ⟨ht,hx⟩
  have still {t : CompilerSessionId} {id : IntermediateArtifactId} (hx : e.Made t id) :
      (e.registered who h k q).Made t id :=
    made_write hs rfl (fun _ h => List.mem_append_left _ h) hx
  have fresh {t : CompilerSessionId} (ht : t ∈ C) : ¬e.Made t e.artifactIds.next.1 := by
    intro hm
    have := ha.made t ht _ hm
    omega
  constructor
  · intro i g hg
    have ⟨g,hg⟩ := write_below hs rfl hg
    exact ha.below i g hg
  · intro t ht
    exact write_known hs rfl rfl (ha.known t ht)
  · exact ha.granted
  · intro t ht x hx
    have ⟨y,hy,_,hl,_⟩ := has hx
    rw [hl]
    exact ha.cited t ht y hy
  · intro t ht x hx
    have ⟨y,hy,hi,_⟩ := has hx
    rw [hi]
    exact ha.phases t ht y hy
  · intro s hs' t ht x y hx hy he
    have ⟨x',hx,hix,_⟩ := has hx
    have ⟨y',hy,hiy,_⟩ := has hy
    exact ha.phaseApart s hs' t ht x' y' hx hy (hix.symm.trans (he.trans hiy))
  · intro i id hx
    rcases e.registered_index who h k q hx with hx | ⟨_,rfl⟩
    · exact Nat.lt_of_lt_of_le (ha.indexed i id hx) hle
    · exact hlt
  · intro t ht id hx
    rcases made hx with hx | ⟨_,rfl⟩
    · exact Nat.lt_of_lt_of_le (ha.made t ht id hx) hle
    · exact hlt
  · intro s hs' t ht id hx hy
    rcases made hx with hx | ⟨rfl,rfl⟩
    · rcases made hy with hy | ⟨_,hid⟩
      · exact ha.madeApart s hs' t ht id hx hy
      · exact absurd (hid ▸ hx) (fresh hs')
    · rcases made hy with hy | ⟨rfl,_⟩
      · exact absurd hy (fresh ht)
      · rfl
  · intro t ht x hx id hid
    have ⟨y,hy,_,_,ho⟩ := has hx
    rcases ho id hid with hid | ⟨rfl,rfl⟩
    · exact still (ha.outputs t ht y hy id hid)
    · refine ⟨_,Function.update_self _ _ _,?_⟩
      exact List.mem_append_right _ (List.mem_singleton.2 rfl)
  · intro t ht id hx i hi
    have on {y : PhaseHolding} (hy : e.Has t y) (hk : y.id.value=i) :
        ∃ x,(e.registered who h k q).Has t x ∧ x.id.value=i := by
      rcases has_write hs hq (rfl : (e.registered who h k q).sessions=_) rfl hy with hy | ⟨_,he,hy⟩
      · exact ⟨y,hy,hk⟩
      · exact ⟨_,hy,he ▸ hk⟩
    rcases made hx with hx | ⟨rfl,rfl⟩
    · rcases e.registered_index who h k q hi with hi | ⟨_,rfl⟩
      · have ⟨y,hy,hk⟩ := ha.index t ht id hx i hi
        exact on hy hk
      · exact absurd hx (fresh ht)
    · rcases e.registered_index t h k q hi with hi | ⟨hi,_⟩
      · have := ha.indexed i _ hi
        omega
      · exact on hq' hi.symm

/-- Identities drawn and not used. -/
theorem Apart.advanced (ha : e.Apart C) {sessionIds : IdAllocator .session}
    {phaseIds : IdAllocator .phase} (hs : e.sessionIds.counter.toNat ≤ sessionIds.counter.toNat)
    (hp : e.phaseIds.counter.toNat ≤ phaseIds.counter.toNat) :
    { e with sessionIds,phaseIds }.Apart C :=
  { ha with
    below := fun i h hi => Nat.lt_of_lt_of_le (ha.below i h hi) hs
    phases := fun t ht q hq => Nat.lt_of_lt_of_le (ha.phases t ht q hq) hp }

/-- A session that comes from elsewhere, whatever it says it holds. -/
theorem Apart.opened (ha : e.Apart C) {i : UInt64} (hn : e.sessions i=none)
    (hi : i.toNat<e.sessionIds.counter.toNat) :
    { e with sessions := Function.update e.sessions i (some h) }.Apart C := by
  let e' : Estate := { e with sessions := Function.update e.sessions i (some h) }
  have same {t : CompilerSessionId} (ht : t ∈ C) : e'.sessions t.value=e.sessions t.value := by
    apply Function.update_of_ne
    rintro rfl
    have ⟨g,hg,_⟩ := ha.known t ht
    rw [hn] at hg
    cases hg
  have has {t : CompilerSessionId} (ht : t ∈ C) (q : PhaseHolding) : e'.Has t q ↔ e.Has t q := by
    simp only [Has,same ht]
  have made {t : CompilerSessionId} (ht : t ∈ C) (id : IntermediateArtifactId) :
      e'.Made t id ↔ e.Made t id := by
    simp only [Made,same ht]
  show e'.Apart C
  constructor
  · intro j g hg
    by_cases hj : j=i
    · exact hj ▸ hi
    · have hg : Function.update e.sessions i (some h) j=some g := hg
      rw [Function.update_of_ne hj] at hg
      exact ha.below j g hg
  · intro t ht
    rw [same ht]
    exact ha.known t ht
  · exact ha.granted
  · intro t ht q hq
    exact ha.cited t ht q ((has ht q).1 hq)
  · intro t ht q hq
    exact ha.phases t ht q ((has ht q).1 hq)
  · intro s hs t ht x y hx hy
    exact ha.phaseApart s hs t ht x y ((has hs x).1 hx) ((has ht y).1 hy)
  · exact ha.indexed
  · intro t ht id hx
    exact ha.made t ht id ((made ht id).1 hx)
  · intro s hs t ht id hx hy
    exact ha.madeApart s hs t ht id ((made hs id).1 hx) ((made ht id).1 hy)
  · intro t ht q hq id hid
    exact (made ht id).2 (ha.outputs t ht q ((has ht q).1 hq) id hid)
  · intro t ht id hx i hi
    have ⟨q,hq,hk⟩ := ha.index t ht id ((made ht id).1 hx) i hi
    exact ⟨q,(has ht q).2 hq,hk⟩

/-- A phase that has not been reserved, under an identity of its own. -/
structure Fresh (C : List CompilerSessionId) (e : Estate) (q : PhaseHolding) : Prop where
  lease : q.lease={}
  outputs : q.outputs=[]
  below : q.id.value.toNat<e.phaseIds.counter.toNat
  apart : ∀ t ∈ C,∀ x,e.Has t x → x.id ≠ q.id

/-- A session whose phases are all fresh holds nothing of the others. -/
theorem Apart.cons (ha : e.Apart C) {t : CompilerSessionId} (hs : e.sessions t.value=some h)
    (hid : h.id=t) (hm : h.intermediates=[]) (hf : ∀ k q,h.phases k=some q → e.Fresh C q) :
    e.Apart (t::C) := by
  have fresh {q : PhaseHolding} (hq : e.Has t q) : e.Fresh C q := by
    have ⟨g,k,hg,hk⟩ := hq
    rw [hs] at hg
    cases hg
    exact hf k q hk
  have none {id : IntermediateArtifactId} (hx : e.Made t id) : False := by
    have ⟨g,hg,hi⟩ := hx
    rw [hs] at hg
    cases hg
    rw [hm] at hi
    cases hi
  refine ⟨ha.below,?_,ha.granted,?_,?_,?_,ha.indexed,?_,?_,?_,?_⟩
  · exact List.forall_mem_cons.2 ⟨⟨h,hs,hid⟩,ha.known⟩
  · refine List.forall_mem_cons.2 ⟨?_,ha.cited⟩
    intro q hq
    rw [(fresh hq).lease]
    refine ⟨fun hp => absurd hp (by decide),?_⟩
    intro x hx
    exact absurd rfl (ha.granted _ x hx).1
  · exact List.forall_mem_cons.2 ⟨fun q hq => (fresh hq).below,ha.phases⟩
  · refine List.forall_mem_cons.2 ⟨?_,?_⟩
    · refine List.forall_mem_cons.2 ⟨fun _ _ _ _ _ => rfl,?_⟩
      intro s hs' p q hp hq he
      exact absurd he.symm ((fresh hp).apart s hs' q hq)
    · intro s hs'
      refine List.forall_mem_cons.2 ⟨?_,ha.phaseApart s hs'⟩
      intro p q hp hq he
      exact absurd he ((fresh hq).apart s hs' p hp)
  · exact List.forall_mem_cons.2 ⟨fun _ hx => (none hx).elim,ha.made⟩
  · refine List.forall_mem_cons.2 ⟨fun _ _ _ hx => (none hx).elim,?_⟩
    intro s hs'
    exact List.forall_mem_cons.2 ⟨fun _ _ hx => (none hx).elim,ha.madeApart s hs'⟩
  · refine List.forall_mem_cons.2 ⟨?_,ha.outputs⟩
    intro q hq id hi
    rw [(fresh hq).outputs] at hi
    cases hi
  · exact List.forall_mem_cons.2 ⟨fun _ hx => (none hx).elim,ha.index⟩

/-- Before any session is made: what a journal brought back lies below the allocators that were
told of it, and no lease is out. -/
structure Grounded (e : Estate) : Prop where
  sessions : ∀ i h,e.sessions i=some h → i.toNat<e.sessionIds.counter.toNat ∨ e.sessionIds.spent
  leases : ∀ i,e.leases i=none
  index : ∀ i,∀ id ∈ e.index i,id.value.toNat<e.artifactIds.counter.toNat ∨ e.artifactIds.spent

theorem Grounded.apart (hg : e.Grounded) (hu : e.spent=false) : e.Apart [] := by
  simp only [spent,Bool.or_eq_false_iff] at hu
  have nobody {t : CompilerSessionId} (ht : t ∈ ([] : List CompilerSessionId)) : False := by cases ht
  refine ⟨?_,fun _ ht => (nobody ht).elim,?_,fun _ ht => (nobody ht).elim,
    fun _ ht => (nobody ht).elim,fun _ ht => (nobody ht).elim,?_,fun _ ht => (nobody ht).elim,
    fun _ ht => (nobody ht).elim,fun _ ht => (nobody ht).elim,fun _ ht => (nobody ht).elim⟩
  · intro i h hi
    refine (hg.sessions i h hi).resolve_right ?_
    rw [hu.1.1.1]
    exact Bool.false_ne_true
  · intro i x hx
    rw [hg.leases i] at hx
    cases hx
  · intro i id hid
    refine (hg.index i id hid).resolve_right ?_
    rw [hu.2]
    exact Bool.false_ne_true

namespace Moves

/-- Identities are only drawn. -/
theorem counters (hm : e.Moves who e') : e'.sessionIds=e.sessionIds ∧ e'.phaseIds=e.phaseIds ∧
    e.leaseIds.counter.toNat ≤ e'.leaseIds.counter.toNat ∧
    e.artifactIds.counter.toNat ≤ e'.artifactIds.counter.toNat := by
  induction hm with
  | refl e => exact ⟨rfl,rfl,Nat.le_refl _,Nat.le_refl _⟩
  | reserve hs hq => exact ⟨rfl,rfl,IdAllocator.le_next _,Nat.le_refl _⟩
  | register hs hq => exact ⟨rfl,rfl,Nat.le_refl _,IdAllocator.le_next _⟩
  | trans _ _ ih ih' =>
    have ⟨hs,hp,hl,ha⟩ := ih
    have ⟨hs',hp',hl',ha'⟩ := ih'
    exact ⟨hs'.trans hs,hp'.trans hp,Nat.le_trans hl hl',Nat.le_trans ha ha'⟩

theorem unspent (hm : e.Moves who e') (hu : e'.spent=false) : e.spent=false := by
  have ⟨hs,hp,hl,ha⟩ := hm.counters
  simp only [spent,Bool.or_eq_false_iff,hs,hp] at hu ⊢
  exact ⟨⟨hu.1.1,IdAllocator.unspent_of_le hl hu.1.2⟩,IdAllocator.unspent_of_le ha hu.2⟩

theorem apart (hm : e.Moves who e') (hu : e'.spent=false) (ha : e.Apart C) : e'.Apart C := by
  induction hm with
  | refl e => exact ha
  | reserve hs hq =>
    simp only [spent,Bool.or_eq_false_iff] at hu
    exact ha.reserved hs hq hu.1.2
  | register hs hq =>
    simp only [spent,Bool.or_eq_false_iff] at hu
    exact ha.registered hs hq hu.2
  | trans _ h' ih ih' => exact ih' hu (ih (h'.unspent hu) ha)

/-- The session is there, under the same identity. -/
theorem session (hm : e.Moves who e') {g : Holding} (hg : e'.sessions who.value=some g) :
    ∃ h,e.sessions who.value=some h ∧ h.id=g.id := by
  induction hm generalizing g with
  | refl e => exact ⟨g,hg,rfl⟩
  | reserve hs hq =>
    simp only [reserved,Function.update_self,Option.some.injEq] at hg
    exact ⟨_,hs,hg ▸ rfl⟩
  | register hs hq =>
    simp only [registered,Function.update_self,Option.some.injEq] at hg
    exact ⟨_,hs,hg ▸ rfl⟩
  | trans _ _ ih ih' =>
    have ⟨g',hg',hid⟩ := ih' hg
    have ⟨h,hh,hid'⟩ := ih hg'
    exact ⟨h,hh,hid'.trans hid⟩

/-- A lease is granted above the earlier ones, and to the session itself. -/
theorem leases (hm : e.Moves who e') {i : UInt64} {x : CompilerSessionId}
    (hx : e'.leases i=some x) : e.leases i=some x ∨
      e.leaseIds.counter.toNat ≤ i.toNat ∧ ∃ h,e.sessions who.value=some h ∧ x=h.id := by
  induction hm with
  | refl e => exact .inl hx
  | @reserve e h k q hs hq =>
    rcases e.reserved_leases who h k q hx with hx | ⟨rfl,rfl⟩
    · exact .inl hx
    · exact .inr ⟨e.leaseIds.le_drawn,h,hs,rfl⟩
  | register hs hq => exact .inl hx
  | trans h _ ih ih' =>
    rcases ih' hx with hx | ⟨hle,g,hg,hid⟩
    · exact ih hx
    · have ⟨h',hh,hid'⟩ := h.session hg
      exact .inr ⟨Nat.le_trans h.counters.2.2.1 hle,h',hh,hid.trans hid'.symm⟩

/-- Phases keep their identities. -/
theorem keeps_phase (hm : e.Moves who e') {id : CompilerPhaseId} {i : UInt64}
    (hx : e.At who i id) : e'.At who i id := by
  have on {e : Estate} {h : Holding} {q q' : PhaseHolding} {k : UInt64} {sessions : UInt64 → Option Holding}
      {ids : List IntermediateArtifactId} (hs : e.sessions who.value=some h) (hq : h.phases k=some q)
      (hx : e.At who i id)
      (hw : sessions who.value=some ⟨h.id,ids,Function.update h.phases k (some q')⟩)
      (hid : q'.id=q.id) :
      ∃ h q,sessions who.value=some h ∧ h.phases i=some q ∧ q.id=id := by
    have ⟨g,x,hg,hx,hi⟩ := hx
    rw [hs] at hg
    cases hg
    by_cases hk : i=k
    · subst hk
      rw [hq] at hx
      cases hx
      exact ⟨_,q',hw,Function.update_self _ _ _,hid.trans hi⟩
    · refine ⟨_,x,hw,?_,hi⟩
      exact (Function.update_of_ne hk _ _).trans hx
  induction hm with
  | refl e => exact hx
  | reserve hs hq => exact on hs hq hx (Function.update_self _ _ _) rfl
  | register hs hq => exact on hs hq hx (Function.update_self _ _ _) rfl
  | trans _ _ ih ih' => exact ih' (ih hx)

/-- What a phase cites is what it cited, or was granted since. -/
theorem cites (hm : e.Moves who e') {i : UInt64} (hx : e'.Cites who i) :
    e.Cites who i ∨ e.leaseIds.counter.toNat ≤ i.toNat := by
  induction hm with
  | refl e => exact .inl hx
  | @reserve e h k q hs hq =>
    have ⟨x,hx,hi⟩ := hx
    rcases write_has hs rfl rfl hx with hx | ⟨_,he⟩
    · exact .inl ⟨x,hx,hi⟩
    · subst he hi
      exact .inr e.leaseIds.le_drawn
  | @register e h k q hs hq =>
    have ⟨x,hx,hi⟩ := hx
    rcases write_has hs rfl rfl hx with hx | ⟨_,he⟩
    · exact .inl ⟨x,hx,hi⟩
    · subst he
      exact .inl ⟨q,⟨h,k,hs,hq⟩,hi⟩
  | trans h _ ih ih' =>
    rcases ih' hx with hx | hle
    · exact ih hx
    · exact .inr (Nat.le_trans h.counters.2.2.1 hle)

theorem reaches (hm : e.Moves who e') {id : IntermediateArtifactId} (hx : e'.Reaches who id) :
    e.Reaches who id ∨ e.artifactIds.counter.toNat ≤ id.value.toNat := by
  induction hm with
  | refl e => exact .inl hx
  | @reserve e h k q hs hq =>
    have ⟨x,hx,hi⟩ := hx
    rcases write_has hs rfl rfl hx with hx | ⟨_,he⟩
    · exact .inl ⟨x,hx,hi⟩
    · subst he
      rcases hi with hi | hi
      · cases hi
      · exact .inl ⟨q,⟨h,k,hs,hq⟩,.inr hi⟩
  | @register e h k q hs hq =>
    have ⟨x,hx,hi⟩ := hx
    have hq' : e.Has who q := ⟨h,k,hs,hq⟩
    have indexed {y : PhaseHolding} (hy : e.Has who y)
        (hi : id ∈ (e.registered who h k q).index y.id.value) :
        e.Reaches who id ∨ e.artifactIds.counter.toNat ≤ id.value.toNat := by
      rcases e.registered_index who h k q hi with hi | ⟨_,rfl⟩
      · exact .inl ⟨y,hy,.inr hi⟩
      · exact .inr e.artifactIds.le_drawn
    rcases write_has hs rfl rfl hx with hx | ⟨_,he⟩
    · rcases hi with hi | hi
      · exact .inl ⟨x,hx,.inl hi⟩
      · exact indexed hx hi
    · subst he
      rcases hi with hi | hi
      · rw [List.mem_append,List.mem_singleton] at hi
        rcases hi with hi | rfl
        · exact .inl ⟨q,hq',.inl hi⟩
        · exact .inr e.artifactIds.le_drawn
      · exact indexed hq' hi
  | trans h _ ih ih' =>
    rcases ih' hx with hx | hle
    · exact ih hx
    · exact .inr (Nat.le_trans h.counters.2.2.2 hle)

/-- What a session made it made before, or is the one that makes it now. -/
theorem made (hm : e.Moves who e') {t : CompilerSessionId} {id : IntermediateArtifactId}
    (hx : e'.Made t id) :
    e.Made t id ∨ t=who ∧ e.artifactIds.counter.toNat ≤ id.value.toNat := by
  induction hm with
  | refl e => exact .inl hx
  | @reserve e h k q hs hq =>
    rcases write_made hs rfl hx with hx | ⟨rfl,hi⟩
    · exact .inl hx
    · exact .inl ⟨h,hs,hi⟩
  | @register e h k q hs hq =>
    rcases write_made hs rfl hx with hx | ⟨rfl,hi⟩
    · exact .inl hx
    · rcases List.mem_append.1 hi with hi | hi
      · exact .inl ⟨h,hs,hi⟩
      · rw [List.mem_singleton.1 hi]
        exact .inr ⟨rfl,e.artifactIds.le_drawn⟩
  | trans h _ ih ih' =>
    rcases ih' hx with hx | ⟨ht,hle⟩
    · exact ih hx
    · exact .inr ⟨ht,Nat.le_trans h.counters.2.2.2 hle⟩

theorem keeps_made (hm : e.Moves who e') {t : CompilerSessionId} {id : IntermediateArtifactId}
    (hx : e.Made t id) : e'.Made t id := by
  induction hm with
  | refl e => exact hx
  | reserve hs hq => exact made_write hs rfl (List.Subset.refl _) hx
  | register hs hq => exact made_write hs rfl (List.subset_append_left _ _) hx
  | trans _ _ ih ih' => exact ih' (ih hx)

end Moves

end Estate

end CompilerFabric
