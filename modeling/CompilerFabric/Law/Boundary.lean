import CompilerFabric.Base.Walk
import CompilerFabric.Runtime.System
import Mathlib.Data.List.TakeWhile

namespace CompilerFabric

open Base

/-- The registry has the identity, and a recorded binding is to the generation it has. -/
def Ref.registeredAs {tag : IdTag} (registered : Option (Ref tag)) (recorded : Ref tag) : Bool :=
  registered.any fun current => !recorded.moved current

namespace Runtime

/-- What a committed phase recorded of toolchain, target, environment, policy, source and IR is
what is registered now. -/
def bindingsCurrent (rt : Runtime) (session : CompilerSession) (phase : PhaseRecord) : Bool :=
  Ref.registeredAs ((rt.toolchains.find session.toolchain.id).map fun t => ⟨t.id,t.generation⟩)
    phase.toolchain &&
  Ref.registeredAs ((rt.targets.find session.target.id).map fun t => ⟨t.id,t.generation⟩)
    phase.target &&
  Ref.registeredAs ((rt.environments.find session.environment.id).map fun e => ⟨e.id,e.generation⟩)
    phase.environment &&
  Ref.registeredAs ((rt.policies.find session.policy.id).map fun p => ⟨p.id,p.generation⟩)
    phase.policy &&
  Ref.registeredAs ((rt.sources.find session.source.id).map fun u => ⟨u.id,u.generation⟩)
    phase.source &&
  (!phase.irGeneration.present || phase.irGeneration=session.irGeneration)

/-- The other domains that `compare_authority` checks find nothing: the phase records no lease
and the session's compilation, and the session is open and has one toolchain. -/
def unimpeded (session : CompilerSession) (phase : PhaseRecord) : Bool :=
  !phase.lease.present && phase.compilationGeneration=session.compilationGeneration &&
  (session.state.admitsNewAuthority || session.state=.recovering) &&
  session.cooperatingToolchains.isEmpty

theorem registeredAs_map {tag : IdTag} {α : Type} {found : Option α} {ref : α → Ref tag}
    {b recorded : Ref tag} : Ref.registeredAs (found.map ref) recorded=true ↔
      found.isSome ∧ (recorded.present → recorded=(found.map ref).getD b) := by
  cases found with
  | none => simp [Ref.registeredAs]
  | some a => simp [Ref.registeredAs,Ref.moved_eq_false]

/-- The planner's test of a committed phase tests more than its bindings. -/
theorem boundaryHolds_eq (rt : Runtime) (session : CompilerSession) (phase : PhaseRecord) :
    boundaryHolds (rt.observe session) phase=
      (rt.bindingsCurrent session phase && unimpeded session phase) := by
  rw [Bool.eq_iff_iff,boundaryHolds,decide_eq_true_iff,compareAuthority_eq_valid]
  simp only [bindingsCurrent,unimpeded,Bool.and_eq_true,decide_eq_true_eq]
  constructor
  · intro h
    refine ⟨⟨⟨⟨⟨⟨registeredAs_map.2 ⟨h.toolchainCurrent,h.toolchain⟩,
      registeredAs_map.2 ⟨h.targetCurrent,h.target⟩⟩,
      registeredAs_map.2 ⟨h.environmentCurrent,h.environment⟩⟩,
      registeredAs_map.2 ⟨h.policyCurrent,h.policy⟩⟩,
      registeredAs_map.2 ⟨h.sourceCurrent,h.source⟩⟩,?_⟩,⟨⟨?_,h.compilation⟩,h.active⟩,?_⟩
    · cases hi : phase.irGeneration.present with
      | false => rfl
      | true =>
        have hir : phase.irGeneration=session.irGeneration := h.ir hi
        simpa using hir
    · cases hl : phase.lease.present with
      | false => rfl
      | true =>
        -- the observation names no lease
        have he : phase.lease={} := h.lease hl
        rw [he] at hl
        cases hl
    · have hc : []=session.cooperatingToolchains.map _ := h.cooperating
      rw [List.map_eq_nil_iff.1 hc.symm]
      rfl
  · rintro ⟨⟨⟨⟨⟨⟨ht,hg⟩,he⟩,hp⟩,hs⟩,hi⟩,⟨⟨hl,hc⟩,ha⟩,hn⟩
    obtain ⟨htc,ht⟩ := (registeredAs_map (b := session.toolchain)).1 ht
    obtain ⟨hgc,hg⟩ := (registeredAs_map (b := session.target)).1 hg
    obtain ⟨hec,he⟩ := (registeredAs_map (b := session.environment)).1 he
    obtain ⟨hpc,hp⟩ := (registeredAs_map (b := session.policy)).1 hp
    obtain ⟨hsc,hs⟩ := (registeredAs_map (b := session.source)).1 hs
    have hl : phase.lease.present=false := by simpa using hl
    have hn : session.cooperatingToolchains=[] := List.isEmpty_iff.1 hn
    have none {p : Prop} : phase.lease.present=true → p := fun h => absurd h (by rw [hl]; decide)
    refine ⟨ha,rfl,hc,rfl,rfl,htc,ht,?_,rfl,hgc,hg,hec,he,hpc,hp,hsc,hs,?_,none,none⟩
    · simp [observe,hn]
    · intro h
      have hir : phase.irGeneration=session.irGeneration := by simpa [h] using hi
      exact hir

/-- The record that `plan_recovery` is given for a phase. -/
def recordOf (session : CompilerSession) (id : CompilerPhaseId) : Option PhaseRecord :=
  (orderedPhaseRecords session).find? (·.id=id)

/-- A mandatory phase that is not committed under what is registered now. -/
def lapsed (rt : Runtime) (session : CompilerSession) (id : CompilerPhaseId) : Bool :=
  (session.plan.find id).any (·.mandatory) &&
    match recordOf session id with
    | none => true
    | some phase => phase.state ≠ .committed || !rt.bindingsCurrent session phase

/-- Where a recovery ought to restart. -/
def boundary (rt : Runtime) (session : CompilerSession) : Option CompilerPhaseId :=
  session.plan.order.find? (rt.lapsed session)

/-- `plan_recovery` restarts at the boundary, and reports so where there is none. -/
def RestartsAtBoundary (rt : Runtime) (session : CompilerSession) (plan : RecoveryPlan) : Prop :=
  recoveryRestartPhase session.plan (orderedPhaseRecords session) (rt.observe session)=
    rt.boundary session ∧
  (rt.boundary session=none →
    plan.rationale=ascii "every mandatory phase is committed under current authority")

/-- No mandatory phase ahead of the boundary has its lease on record or is held up by another
domain than the bindings. -/
def ClearToBoundary (rt : Runtime) (session : CompilerSession) : Prop :=
  ∀ id ∈ session.plan.order.takeWhile (!rt.lapsed session ·),
    (session.plan.find id).any (·.mandatory) → (recordOf session id).all (unimpeded session)

variable {rt : Runtime} {session : CompilerSession} {sid : CompilerSessionId} {plan : RecoveryPlan}

theorem restart_eq_boundary_iff :
    recoveryRestartPhase session.plan (orderedPhaseRecords session) (rt.observe session)=
      rt.boundary session ↔ rt.ClearToBoundary session := by
  have hweak : ∀ id,rt.lapsed session id → ((session.plan.find id).any (·.mandatory) &&
      match recordOf session id with
      | none => true
      | some phase =>
          phase.state ≠ .committed || !boundaryHolds (rt.observe session) phase)=true := by
    intro id h
    unfold lapsed at h
    rw [Bool.and_eq_true] at h ⊢
    refine ⟨h.1,?_⟩
    cases hr : recordOf session id with
    | none => rfl
    | some phase =>
      rw [hr] at h
      simp only [boundaryHolds_eq,Bool.or_eq_true,Bool.not_and] at h ⊢
      tauto
  rw [boundary,recoveryRestartPhase]
  refine (find?_eq_find?_iff hweak).trans (forall₂_congr fun id hid => ?_)
  have hq : rt.lapsed session id=false := by simpa using List.mem_takeWhile_imp hid
  unfold lapsed at hq
  cases hm : (session.plan.find id).any (·.mandatory) with
  | false => simp
  | true =>
    rw [hm,Bool.true_and] at hq
    cases hr : recordOf session id with
    | none => simp [hr] at hq
    | some phase =>
      rw [hr] at hq
      simp only [Bool.or_eq_false_iff] at hq
      simp [boundaryHolds_eq,hq]

theorem planRecoveryOf_eq (hs : rt.find sid=some session) (hp : rt.planRecoveryOf sid=.ok plan) :
    plan.rationale=(planRecovery session.plan (orderedPhaseRecords session) rt.artifacts
      (rt.observe session) (session.state=.recovering || session.recoveryState=.required)).rationale := by
  unfold planRecoveryOf requireSession at hp
  rw [hs] at hp
  simp only [Option.elim_some,bind,Except.bind,pure,Except.pure,Except.ok.injEq] at hp
  rw [← hp]

/-- The restart boundary is the one intended exactly when nothing but the bindings can tell
against a committed phase ahead of it and, without a boundary, every output is authoritative. -/
theorem restarts_at_boundary_iff (hs : rt.find sid=some session)
    (hp : rt.planRecoveryOf sid=.ok plan) : rt.RestartsAtBoundary session plan ↔
      rt.ClearToBoundary session ∧ (rt.boundary session=none →
        suspectArtifacts (orderedPhaseRecords session) rt.artifacts=[]) := by
  rw [RestartsAtBoundary,restart_eq_boundary_iff,planRecoveryOf_eq hs hp]
  refine and_congr_right fun hclear => imp_congr_right fun hnone => ?_
  rw [planRecovery,restart_eq_boundary_iff.2 hclear,hnone]
  dsimp only
  by_cases h : suspectArtifacts (orderedPhaseRecords session) rt.artifacts=[]
  · simp [h]
  · have he : (suspectArtifacts (orderedPhaseRecords session) rt.artifacts).isEmpty=false := by
      simpa using h
    rw [he,if_neg (by decide)]
    constructor
    · intro hr
      have hne : ascii "revalidation is required before the session can be considered complete" ≠
          ascii "every mandatory phase is committed under current authority" := by decide
      exact absurd hr hne
    · exact fun hn => absurd hn h

end Runtime

namespace Sample

/-- Two phases in a row. -/
def staged : World :=
  { world with localPlan := PhasePlan.build [{ id := ⟨1⟩,kind := .codegen },
      { id := ⟨2⟩,kind := .link,dependsOn := [⟨1⟩] }] }

/-- The first of them has committed. -/
def halfway : System := (ready.apply (.call (.createSession request) staged)).run
  (.call (.runPhase ⟨1⟩ ⟨1⟩) staged::List.replicate 9 (.resume 2 staged))

end Sample

namespace Runtime

/-- The committed first phase still records its lease: the planner takes it for the boundary. -/
theorem not_restarts_of_halfway : ∃ s plan,Sample.halfway.rt.find ⟨1⟩=some s ∧
    Sample.halfway.rt.planRecoveryOf ⟨1⟩=.ok plan ∧
    ¬Sample.halfway.rt.RestartsAtBoundary s plan := by
  have h : ((Sample.halfway.rt.find ⟨1⟩).any fun s =>
      decide (recoveryRestartPhase s.plan (orderedPhaseRecords s) (Sample.halfway.rt.observe s)=
        some ⟨1⟩ ∧ Sample.halfway.rt.boundary s=some ⟨2⟩))=true ∧
      (Sample.halfway.rt.planRecoveryOf ⟨1⟩).toBool=true := by decide +kernel
  generalize Sample.halfway.rt=rt at h ⊢
  obtain ⟨hs,hp⟩ := h
  obtain ⟨s,hs,hb⟩ := (Option.any_eq_true _ _).1 hs
  obtain ⟨hr,hb⟩ := of_decide_eq_true hb
  cases hplan : rt.planRecoveryOf ⟨1⟩ with
  | error e =>
    rw [hplan] at hp
    cases hp
  | ok plan =>
    refine ⟨s,plan,hs,rfl,fun hat => ?_⟩
    have he := hat.1
    rw [hr,hb] at he
    exact absurd he (by decide)

theorem restarts_of_created : ∃ s plan,Sample.created.rt.find ⟨1⟩=some s ∧
    Sample.created.rt.planRecoveryOf ⟨1⟩=.ok plan ∧
    Sample.created.rt.RestartsAtBoundary s plan := by
  have h : ((Sample.created.rt.find ⟨1⟩).any fun s =>
      decide (Sample.created.rt.boundary s=some ⟨1⟩ ∧
        s.plan.order.takeWhile (!Sample.created.rt.lapsed s ·)=[]))=true ∧
      (Sample.created.rt.planRecoveryOf ⟨1⟩).toBool=true := by decide +kernel
  generalize Sample.created.rt=rt at h ⊢
  obtain ⟨hs,hp⟩ := h
  obtain ⟨s,hs,hb⟩ := (Option.any_eq_true _ _).1 hs
  obtain ⟨hb,ht⟩ := of_decide_eq_true hb
  cases hplan : rt.planRecoveryOf ⟨1⟩ with
  | error e =>
    rw [hplan] at hp
    cases hp
  | ok plan =>
    refine ⟨s,plan,hs,rfl,(restarts_at_boundary_iff hs hplan).2 ⟨?_,?_⟩⟩
    · intro id hid
      rw [ht] at hid
      cases hid
    · intro hn
      rw [hb] at hn
      cases hn

end Runtime

end CompilerFabric
