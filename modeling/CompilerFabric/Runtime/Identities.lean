import CompilerFabric.Runtime.System

namespace CompilerFabric

open Base Base.Action

/-- The identity the `n`-th draw from a fresh allocator gives. -/
def nthId (n : Nat) : UInt64 := UInt64.ofNat (min n (2^64-1))

theorem nthId_toNat (n : Nat) : (nthId n).toNat=min n (2^64-1) := by
  simp only [nthId,UInt64.toNat_ofNat']
  omega

theorem nthId_succ_ne_zero (n : Nat) : nthId (n+1) ≠ 0 := by
  intro h
  have h := congrArg UInt64.toNat h
  rw [nthId_toNat] at h
  simp only [UInt64.toNat_zero] at h
  omega

namespace IdAllocator

variable {tag : IdTag}

theorem next_of_counter {a : IdAllocator tag} {n : Nat} (h : a.counter=nthId (n+1)) :
    a.next.1.value=nthId (n+1) ∧ a.next.2.counter=nthId (n+2) := by
  have hc : (if a.counter=0 then 1 else a.counter)=nthId (n+1) := by
    rw [h,if_neg (nthId_succ_ne_zero n)]
  refine ⟨hc,?_⟩
  simp only [next,hc]
  apply UInt64.toNat_inj.1
  have hk : kMax.toNat=2^64-1 := rfl
  split
  · next he =>
    have he := congrArg UInt64.toNat he
    rw [nthId_toNat,hk] at he
    rw [nthId_toNat,nthId_toNat]
    omega
  · next he =>
    have hne : (nthId (n+1)).toNat ≠ 2^64-1 := by
      intro hn
      exact he (UInt64.toNat_inj.1 hn)
    rw [UInt64.toNat_add,UInt64.toNat_one,nthId_toNat,nthId_toNat]
    rw [nthId_toNat] at hne
    omega

end IdAllocator

/-- What was drawn under one tag, oldest first. -/
def drawn (issued : List (IdTag × UInt64)) (tag : IdTag) : List UInt64 :=
  (issued.filter (·.1=tag)).map (·.2)

/-- The draws under a tag number off from one, and the allocator stands after them. -/
structure NumbersOff (issued : List (IdTag × UInt64)) (tag : IdTag) (counter : UInt64) : Prop where
  draws : drawn issued tag=(List.range (drawn issued tag).length).map fun n => nthId (n+1)
  counter : counter=nthId ((drawn issued tag).length+1)

theorem drawn_append_self (issued : List (IdTag × UInt64)) (tag : IdTag) (id : UInt64) :
    drawn (issued++[(tag,id)]) tag=drawn issued tag++[id] := by
  simp [drawn]

theorem drawn_append_of_ne (issued : List (IdTag × UInt64)) {tag tag' : IdTag} (id : UInt64)
    (h : tag' ≠ tag) : drawn (issued++[(tag',id)]) tag=drawn issued tag := by
  simp [drawn,h]

namespace NumbersOff

variable {issued : List (IdTag × UInt64)} {tag tag' : IdTag} {a : IdAllocator tag}

theorem next (h : NumbersOff issued tag a.counter) :
    NumbersOff (issued++[(tag,a.next.1.value)]) tag a.next.2.counter := by
  have ⟨hid,hc⟩ := IdAllocator.next_of_counter h.counter
  have hd := drawn_append_self issued tag a.next.1.value
  refine ⟨?_,?_⟩
  · rw [hd,List.length_append,List.length_singleton,List.range_succ,List.map_append,← h.draws,hid]
    rfl
  · rw [hd,List.length_append,List.length_singleton,hc]

theorem other {counter id : UInt64} (h : NumbersOff issued tag counter) (hne : tag' ≠ tag) :
    NumbersOff (issued++[(tag',id)]) tag counter := by
  refine ⟨?_,?_⟩
  · rw [drawn_append_of_ne issued id hne]
    exact h.draws
  · rw [drawn_append_of_ne issued id hne]
    exact h.counter

end NumbersOff

namespace Runtime

/-- The six allocators a replay does not advance number off from one. -/
structure Minted (rt : Runtime) : Prop where
  phase : NumbersOff rt.issued .phase rt.phaseIds.counter
  invocation : NumbersOff rt.issued .invocation rt.invocationIds.counter
  attempt : NumbersOff rt.issued .attempt rt.attemptIds.counter
  lease : NumbersOff rt.issued .lease rt.leases.allocator.counter
  commit : NumbersOff rt.issued .commit rt.commitIds.counter
  final : NumbersOff rt.issued .artifact rt.finalIds.counter

/-- Whatever is drawn is drawn from these allocators. -/
def Mints (rt rt' : Runtime) : Prop := rt.Minted → rt'.Minted

instance : IsPreorder Runtime Mints where
  refl _ h := h
  trans _ _ _ h h' hm := h' (h hm)

/-- What was drawn, and the allocators it was drawn from. -/
def numbering (rt : Runtime) := (rt.issued,rt.phaseIds.counter,rt.invocationIds.counter,
  rt.attemptIds.counter,rt.leases.allocator.counter,rt.commitIds.counter,rt.finalIds.counter)

/-- A write elsewhere. -/
theorem Mints.same {rt rt' : Runtime} (h : rt'.numbering=rt.numbering) : Mints rt rt' := by
  simp only [numbering,Prod.mk.injEq] at h
  have ⟨hi,hp,hv,ha,hl,hc,hf⟩ := h
  intro hm
  refine ⟨?_,?_,?_,?_,?_,?_⟩
  · rw [hi,hp]
    exact hm.phase
  · rw [hi,hv]
    exact hm.invocation
  · rw [hi,ha]
    exact hm.attempt
  · rw [hi,hl]
    exact hm.lease
  · rw [hi,hc]
    exact hm.commit
  · rw [hi,hf]
    exact hm.final

theorem nextAttempt_mints : Within Mints nextAttempt := fun _ h =>
  ⟨h.phase.other (by decide),h.invocation.other (by decide),h.attempt.next,
    h.lease.other (by decide),h.commit.other (by decide),h.final.other (by decide)⟩

theorem nextInvocation_mints : Within Mints nextInvocation := fun _ h =>
  ⟨h.phase.other (by decide),h.invocation.next,h.attempt.other (by decide),
    h.lease.other (by decide),h.commit.other (by decide),h.final.other (by decide)⟩

theorem nextCommit_mints : Within Mints nextCommit := fun _ h =>
  ⟨h.phase.other (by decide),h.invocation.other (by decide),h.attempt.other (by decide),
    h.lease.other (by decide),h.commit.next,h.final.other (by decide)⟩

theorem nextFinal_mints : Within Mints nextFinal := fun _ h =>
  ⟨h.phase.other (by decide),h.invocation.other (by decide),h.attempt.other (by decide),
    h.lease.other (by decide),h.commit.other (by decide),h.final.next⟩

theorem grantLease_mints (session : Ref .session) (phase : Ref .phase) (now : UInt64)
    (reason : Bytes) : Within Mints (grantLease session phase now reason) := fun _ h =>
  ⟨h.phase.other (by decide),h.invocation.other (by decide),h.attempt.other (by decide),
    h.lease.next,h.commit.other (by decide),h.final.other (by decide)⟩

/-- One identity for each node of a plan. -/
theorem nextPhases_mints (nodes : List PhaseNode) : Within Mints (nextPhases nodes) := by
  intro rt
  induction nodes generalizing rt with
  | nil =>
    intro h
    simpa [nextPhases,remapIds] using h
  | cons node nodes ih =>
    intro h
    let first : Runtime := { rt with
      phaseIds := rt.phaseIds.next.2
      issued := rt.issued++[(.phase,rt.phaseIds.next.1.value)] }
    have hf : first.Minted := ⟨h.phase.next,h.invocation.other (by decide),
      h.attempt.other (by decide),h.lease.other (by decide),h.commit.other (by decide),
      h.final.other (by decide)⟩
    have hr := ih first hf
    have he : (nextPhases (node::nodes) rt).2=(nextPhases nodes first).2 := by
      simp [nextPhases,remapIds,first]
    rw [he]
    exact hr

end Runtime

end CompilerFabric
