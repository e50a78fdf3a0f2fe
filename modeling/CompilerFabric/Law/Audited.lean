import CompilerFabric.Runtime.Audit
import CompilerFabric.Runtime.Evolution

namespace CompilerFabric

open Base

/-- The history is made of legal transitions, each from where the one before it ended, the last of
them to where the phase stands. -/
structure PhaseRecord.HistorySound (p : PhaseRecord) : Prop where
  legal : ∀ t ∈ p.history,isLegalPhaseTransition t.src t.dst
  contiguous : p.history.IsChain fun t u => t.dst=u.src
  ends : ∀ t,p.history.getLast?=some t → t.dst=p.state

/-- The commit a COMMITTED phase of the session carries. -/
def CompilerSession.commitOf (s : CompilerSession) (id : CompilerPhaseId) : Option UInt64 :=
  (s.findPhase id).bind fun p =>
    if p.state=.committed ∧ p.commit.present then some p.commit.value else none

/-! What each code the auditor is asked about stands for. -/

namespace AuditSubject

variable (watch : ViolationCode → Prop) (subject : AuditSubject) (session : CompilerSession)

/-- A COMMITTED phase has its identities, and is bound to what its session is bound to. -/
structure CommitSound (p : PhaseRecord) : Prop where
  identified : watch .committedPhaseWithoutInvocation →
    p.commit.present ∧ p.activeInvocation.id.present ∧ p.attempts ≠ []
  bound : watch .committedPhaseStaleAuthority → p.toolchain=session.toolchain ∧
    p.target=session.target ∧ p.environment=session.environment ∧ p.policy=session.policy ∧
    p.compilationGeneration=session.compilationGeneration

variable (artifacts : ArtifactRegistry) in
/-- An input is registered, authoritative, and of a phase that stands committed in the generation
that produced it. -/
def InputSound (input : Ref .intermediate) : Prop :=
  ∃ a,artifacts.find input.id=some a ∧ a.authority=.authoritative ∧
    ∃ producer,session.findPhase a.producerPhase.id=some producer ∧ producer.state=.committed ∧
      producer.generation=a.producerPhase.generation

def OutputSound (artifacts : ArtifactRegistry) (p : PhaseRecord) (output : Ref .intermediate) :
    Prop :=
  ∃ a,artifacts.find output.id=some a ∧ (a.authority=.authoritative → p.state=.committed)

structure PhaseSound (p : PhaseRecord) : Prop where
  attempts : watch .attemptHistoryUnbounded → p.attempts.length ≤ kMaxPhaseAttempts
  history : watch .illegalPhaseTransitionRecorded → p.HistorySound
  committed : p.state=.committed → CommitSound watch session p
  cancelled : watch .cancelledPhaseCommitted → p.state=.cancelled → ¬p.commit.present
  fenced : watch .fencedPhaseCommitted → p.state=.fenced → ¬p.commit.present
  retired : watch .retiredPhaseExecutable → p.state=.retired → p.mandatory →
    session.hasCommitted p.id
  pending : watch .staleInvocationRetainsAuthority → p.producedPendingCommit →
    p.activeInvocation.id.present
  process : watch .staleProcessResultCurrent → p.activeProcess.present →
    p.activeProcessGeneration.present
  running : watch .staleInvocationRetainsAuthority → p.state=.running →
    p.activeInvocation.id.present → p.attempts ≠ []
  diagnostics : watch .diagnosticSetOrphan → p.diagnostics.id.present →
    ∀ diagnostics ∈ subject.diagnostics,∃ set,diagnostics.find p.diagnostics.id=some set
  toolchain : watch .authorityBindingMismatch → p.toolchain.id.present →
    ∀ toolchains ∈ subject.toolchains,∃ t,toolchains.find p.toolchain.id=some t
  inputs : watch .phaseConsumesUncommittedInput → ∀ artifacts ∈ subject.artifacts,
    ∀ input ∈ p.inputs,InputSound session artifacts input
  fanIn : watch .invalidFanIn → p.state=.committed → ∀ node,session.plan.find p.id=some node →
    node.fanIn → node.requiredInputs.toNat ≤ p.inputs.length
  outputs : watch .orphanIntermediateAuthoritative → ∀ artifacts ∈ subject.artifacts,
    ∀ output ∈ p.outputs,OutputSound artifacts p output

structure SessionSound : Prop where
  recorded : watch .planDefect → ∀ id ∈ session.plan.order,∃ p,session.findPhase id=some p
  phases : ∀ id ∈ session.plan.order,∀ p,session.findPhase id=some p →
    subject.PhaseSound watch session p
  commits : watch .duplicateLogicalPhaseCommit →
    (session.plan.order.filterMap session.commitOf).Nodup
  complete : watch .sessionStateInconsistent → session.state=.committed →
    session.allMandatoryCommitted ∧ session.candidatePresent
  lineage : watch .finalCandidateIncompleteLineage → session.candidatePresent →
    session.candidate.completeLineage
  evidence : watch .candidateWithoutValidationEvidence → session.candidatePresent →
    session.candidate.validationEvidence ≠ []
  recovery : watch .recoveryStateInconsistent → session.recoveryState=.resolved →
    session.recovery.present
  working : watch .staleProcessResultCurrent → session.state=.active →
    (∃ id ∈ session.plan.order,(session.findPhase id).any (·.state.inFlight)) →
    ∃ id ∈ session.plan.order,(session.findPhase id).any (·.state.mayHoldProcess)
  leases : watch .leaseOutstandingAfterRetire →
    session.state=.retired ∨ session.state=.committed →
    ∀ leases ∈ subject.leases,∀ lease ∈ leases.list,lease.session.id=session.id → ¬lease.held
  processes : watch .liveProcessForRetiredPhase → session.state=.retired →
    ∀ live ∈ subject.liveProcesses,live=0

/-- Authority, currency and provenance of an artifact go together. -/
structure ArtifactSound (a : IntermediateArtifact) : Prop where
  current : watch .intermediateConsumableWithoutValidState → a.authority=.authoritative → a.current
  upheld : watch .intermediateConsumableWithoutValidState → a.current →
    a.authority=.authoritative ∧ a.state=.valid
  provenance : watch .artifactWithoutProvenance → a.authority=.authoritative →
    a.provenance.present ∧ ∀ log ∈ subject.provenance,∃ record,log.find a.provenance=some record

/-- What the sessions and artifacts have to satisfy where sessions are shown at all. -/
structure ShownSound (sessions : List CompilerSession) : Prop where
  distinct : watch .duplicateSessionId → (sessions.map (·.id.value)).Nodup
  established : watch .sessionGenerationRegression →
    ∀ s ∈ sessions,s.id.present ∧ s.generation.value ≠ 0
  planned : watch .planDefect → ∀ s ∈ sessions,s.plan.nodes ≠ []
  sessions : ∀ s ∈ sessions,s.plan.nodes ≠ [] → subject.SessionSound watch s
  artifacts : ∀ artifacts ∈ subject.artifacts,∀ a ∈ artifacts.list,subject.ArtifactSound watch a

/-- What the auditor is there to establish, as far as it is asked about and shown. -/
structure Sound : Prop where
  defects : watch .corruptPersistedStateAccepted → subject.persistedDefects=0
  shown : ∀ sessions ∈ subject.sessions,subject.ShownSound watch sessions

end AuditSubject

namespace InvariantAuditor

open AuditSubject

variable {watch : ViolationCode → Prop} {subject : AuditSubject} {session : CompilerSession}
  {name : Bytes} {phase : PhaseRecord} {report : AuditReport} {commitIds : List UInt64}

/-- The auditor has reported none of the codes. -/
def Silent (watch : ViolationCode → Prop) (report : AuditReport) : Prop :=
  ∀ v ∈ report.violations,¬watch v.code

@[simp] theorem silent_flag {broken : Bool} {code : ViolationCode} {detail : Bytes} :
    Silent watch (report.flag broken code name detail) ↔
      Silent watch report ∧ (watch code → broken=false) := by
  cases broken <;> simp [Silent,AuditReport.flag,flag,or_imp,forall_and]

@[simp] theorem silent_checked {n : Nat} :
    Silent watch (report.checked n) ↔ Silent watch report := Iff.rfl

theorem within_silent {α : Type} {part : Option α} {pass : α → AuditReport → AuditReport}
    {ok : α → Prop} (h : ∀ a report,Silent watch (pass a report) ↔ Silent watch report ∧ ok a) :
    Silent watch (within part pass report) ↔ Silent watch report ∧ ∀ a ∈ part,ok a := by
  cases part with
  | none => simp [within]
  | some a => simp [within,h]

theorem auditTransitions_silent (before : Option PhaseTransition) (l : List PhaseTransition) :
    Silent watch (auditTransitions name before l report) ↔ Silent watch report ∧
      (watch .illegalPhaseTransitionRecorded → (∀ t ∈ l,isLegalPhaseTransition t.src t.dst) ∧
        (before.toList++l).IsChain fun t u => t.dst=u.src) := by
  induction l generalizing before report with
  | nil => cases before <;> simp [auditTransitions]
  | cons t l ih =>
    rw [auditTransitions,ih]
    cases before with
    | none =>
      simp
      grind
    | some b =>
      simp only [silent_flag,Option.toList_some,List.singleton_append,List.isChain_cons_cons,
        List.forall_mem_cons]
      simp
      grind

theorem auditHistory_silent : Silent watch (auditHistory name phase report) ↔
    Silent watch report ∧ (watch .illegalPhaseTransitionRecorded → phase.HistorySound) := by
  have hends : (phase.history.getLast?.any (·.dst ≠ phase.state))=false ↔
      ∀ t,phase.history.getLast?=some t → t.dst=phase.state := by
    cases phase.history.getLast? <;> simp
  rw [auditHistory,silent_flag,auditTransitions_silent,hends]
  constructor
  · rintro ⟨⟨hr,hpath⟩,hlast⟩
    exact ⟨hr,fun hw => ⟨(hpath hw).1,(hpath hw).2,hlast hw⟩⟩
  · rintro ⟨hr,hsound⟩
    exact ⟨⟨hr,fun hw => ⟨(hsound hw).legal,(hsound hw).contiguous⟩⟩,fun hw => (hsound hw).ends⟩

theorem auditCommitted_silent :
    Silent watch (auditCommitted subject session name phase commitIds report) ↔
      Silent watch report ∧ CommitSound watch session phase ∧
      (watch .duplicateLogicalPhaseCommit → phase.commit.present →
        phase.commit.value ∉ commitIds) ∧
      (watch .authorityBindingMismatch → unregisteredToolchain subject phase=false) := by
  have hm : authorityMismatch session phase=false ↔ phase.toolchain=session.toolchain ∧
      phase.target=session.target ∧ phase.environment=session.environment ∧
      phase.policy=session.policy ∧
      phase.compilationGeneration=session.compilationGeneration := by
    simp [authorityMismatch,and_assoc]
  have hi : (!phase.commit.present || !phase.activeInvocation.id.present ||
      phase.attempts.isEmpty)=false ↔
      phase.commit.present ∧ phase.activeInvocation.id.present ∧ phase.attempts ≠ [] := by
    simp [and_assoc]
  have hd : (phase.commit.present && decide (phase.commit.value ∈ commitIds))=false ↔
      (phase.commit.present → phase.commit.value ∉ commitIds) := by
    simp
  simp only [auditCommitted,silent_flag,hm,hi,hd]
  constructor
  · rintro ⟨⟨⟨⟨hr,hi⟩,hd⟩,hb⟩,ht⟩
    exact ⟨hr,⟨hi,hb⟩,hd,ht⟩
  · rintro ⟨hr,⟨hi,hb⟩,hd,ht⟩
    exact ⟨⟨⟨⟨hr,hi⟩,hd⟩,hb⟩,ht⟩

theorem any_isNone_eq_false {α β : Type} {part : Option α} {find : α → Option β} :
    (part.any fun a => (find a).isNone)=false ↔ ∀ a ∈ part,∃ b,find a=some b := by
  cases part with
  | none => simp
  | some a => simp [← Option.isSome_iff_exists]

theorem unregisteredToolchain_eq_false : unregisteredToolchain subject phase=false ↔
    (phase.toolchain.id.present →
      ∀ toolchains ∈ subject.toolchains,∃ t,toolchains.find phase.toolchain.id=some t) := by
  rw [← any_isNone_eq_false,unregisteredToolchain]
  cases phase.toolchain.id.present <;> simp

theorem auditRecord_silent :
    Silent watch (auditRecord subject session name phase report) ↔ Silent watch report ∧
      (watch .cancelledPhaseCommitted → phase.state=.cancelled → ¬phase.commit.present) ∧
      (watch .fencedPhaseCommitted → phase.state=.fenced → ¬phase.commit.present) ∧
      (watch .retiredPhaseExecutable → phase.state=.retired → phase.mandatory →
        session.hasCommitted phase.id) ∧
      (watch .staleInvocationRetainsAuthority → phase.producedPendingCommit →
        phase.activeInvocation.id.present) ∧
      (watch .staleProcessResultCurrent → phase.activeProcess.present →
        phase.activeProcessGeneration.present) ∧
      (watch .staleInvocationRetainsAuthority → phase.state=.running →
        phase.activeInvocation.id.present → phase.attempts ≠ []) ∧
      (watch .diagnosticSetOrphan → phase.diagnostics.id.present →
        ∀ diagnostics ∈ subject.diagnostics,
          ∃ set,diagnostics.find phase.diagnostics.id=some set) ∧
      (watch .authorityBindingMismatch → phase.toolchain.id.present →
        ∀ toolchains ∈ subject.toolchains,∃ t,toolchains.find phase.toolchain.id=some t) := by
  rw [← unregisteredToolchain_eq_false,← any_isNone_eq_false]
  simp only [auditRecord,silent_flag]
  cases subject.diagnostics.any fun diagnostics => (diagnostics.find phase.diagnostics.id).isNone <;>
    simp <;> grind

theorem auditInput_silent (artifacts : ArtifactRegistry) (report : AuditReport)
    (input : Ref .intermediate) :
    Silent watch (auditInput artifacts session name report input) ↔ Silent watch report ∧
      (watch .phaseConsumesUncommittedInput → InputSound session artifacts input) := by
  unfold auditInput InputSound
  cases artifacts.find input.id with
  | none => simp
  | some a =>
    simp only [silent_flag,uncommittedProducer]
    cases hp : session.findPhase a.producerPhase.id with
    | none =>
      simp [hp]
      grind
    | some producer =>
      simp [hp]
      grind

theorem auditOutput_silent (artifacts : ArtifactRegistry) (report : AuditReport)
    (output : Ref .intermediate) :
    Silent watch (auditOutput artifacts name phase report output) ↔ Silent watch report ∧
      (watch .orphanIntermediateAuthoritative → OutputSound artifacts phase output) := by
  unfold auditOutput OutputSound
  cases artifacts.find output.id with
  | none => simp
  | some a => simp

theorem auditFanIn_silent : Silent watch (auditFanIn session name phase report) ↔
    Silent watch report ∧ (watch .invalidFanIn → phase.state=.committed →
      ∀ node,session.plan.find phase.id=some node → node.fanIn →
        node.requiredInputs.toNat ≤ phase.inputs.length) := by
  unfold auditFanIn
  cases session.plan.find phase.id <;> simp

theorem auditInputs_silent (inputs : List (Ref .intermediate)) :
    Silent watch (within subject.artifacts (fun artifacts report =>
        inputs.foldl (auditInput artifacts session name) report) report) ↔
      Silent watch report ∧ ∀ artifacts ∈ subject.artifacts,∀ input ∈ inputs,
        watch .phaseConsumesUncommittedInput → InputSound session artifacts input :=
  within_silent fun artifacts report => foldl_silent (auditInput_silent artifacts) inputs report

theorem auditOutputs_silent (outputs : List (Ref .intermediate)) :
    Silent watch (within subject.artifacts (fun artifacts report =>
        outputs.foldl (auditOutput artifacts name phase) report) report) ↔
      Silent watch report ∧ ∀ artifacts ∈ subject.artifacts,∀ output ∈ outputs,
        watch .orphanIntermediateAuthoritative → OutputSound artifacts phase output :=
  within_silent fun artifacts report => foldl_silent (auditOutput_silent artifacts) outputs report

/-- The checks of one phase. -/
theorem auditPhase_silent (scan : PhaseScan) (id : CompilerPhaseId) :
    Silent watch (auditPhase subject session scan id).report ↔ Silent watch scan.report ∧
      ((watch .planDefect → ∃ p,session.findPhase id=some p) ∧
        ∀ p,session.findPhase id=some p → subject.PhaseSound watch session p) ∧
      (watch .duplicateLogicalPhaseCommit →
        ∀ k,session.commitOf id=some k → k ∉ scan.commitIds) := by
  have hs : Silent watch { scan.report.checked 12 with
      phasesAudited := scan.report.phasesAudited+1 } ↔ Silent watch scan.report := Iff.rfl
  unfold auditPhase CompilerSession.commitOf
  cases session.findPhase id with
  | none => simp [hs]
  | some p =>
    have hcommits : (∀ k,(if p.state=.committed ∧ p.commit.present then some p.commit.value
        else none)=some k → k ∉ scan.commitIds) ↔
        (p.state=.committed → p.commit.present → p.commit.value ∉ scan.commitIds) := by
      grind
    have hbound : decide (kMaxPhaseAttempts<p.attempts.length)=false ↔
        p.attempts.length ≤ kMaxPhaseAttempts := by
      simp
    simp only [Option.some.injEq,exists_eq',forall_eq',Option.bind_some,hcommits,implies_true,
      true_and]
    rw [auditOutputs_silent,auditFanIn_silent,auditInputs_silent,auditRecord_silent]
    by_cases hc : p.state=.committed
    · rw [if_pos hc,auditCommitted_silent,auditHistory_silent,silent_flag,hbound,hs]
      constructor
      · rintro ⟨⟨⟨⟨⟨⟨⟨hr,ha⟩,hh⟩,hcommit,hd,_⟩,hcancelled,hfenced,hretired,hpending,hprocess,
          hrunning,hdiagnostics,htoolchain⟩,hin⟩,hfan⟩,hout⟩
        exact ⟨hr,⟨ha,hh,fun _ => hcommit,hcancelled,hfenced,hretired,hpending,hprocess,hrunning,
          hdiagnostics,htoolchain,fun hw r hr i hi => hin r hr i hi hw,hfan,fun hw r hr o ho => hout r hr o ho hw⟩,
          fun hw _ => hd hw⟩
      · rintro ⟨hr,h,hd⟩
        exact ⟨⟨⟨⟨⟨⟨⟨hr,h.attempts⟩,h.history⟩,h.committed hc,fun hw => hd hw hc,
          fun hw => unregisteredToolchain_eq_false.2 (h.toolchain hw)⟩,h.cancelled,h.fenced,
          h.retired,h.pending,h.process,h.running,h.diagnostics,h.toolchain⟩,
          fun r hr i hi hw => h.inputs hw r hr i hi⟩,h.fanIn⟩,fun r hr o ho hw => h.outputs hw r hr o ho⟩
    · rw [if_neg hc,auditHistory_silent,silent_flag,hbound,hs]
      constructor
      · rintro ⟨⟨⟨⟨⟨⟨hr,ha⟩,hh⟩,hcancelled,hfenced,hretired,hpending,hprocess,
          hrunning,hdiagnostics,htoolchain⟩,hin⟩,hfan⟩,hout⟩
        exact ⟨hr,⟨ha,hh,fun h => absurd h hc,hcancelled,hfenced,hretired,hpending,hprocess,
          hrunning,hdiagnostics,htoolchain,fun hw r hr i hi => hin r hr i hi hw,hfan,
          fun hw r hr o ho => hout r hr o ho hw⟩,fun _ h => absurd h hc⟩
      · rintro ⟨hr,h,_⟩
        exact ⟨⟨⟨⟨⟨⟨hr,h.attempts⟩,h.history⟩,h.cancelled,h.fenced,
          h.retired,h.pending,h.process,h.running,h.diagnostics,h.toolchain⟩,
          fun r hr i hi hw => h.inputs hw r hr i hi⟩,h.fanIn⟩,fun r hr o ho hw => h.outputs hw r hr o ho⟩

theorem mem_commitIds (scan : PhaseScan) (id : CompilerPhaseId) (k : UInt64) :
    k ∈ (auditPhase subject session scan id).commitIds ↔
      k ∈ scan.commitIds ∨ session.commitOf id=some k := by
  unfold auditPhase CompilerSession.commitOf
  cases session.findPhase id with
  | none => simp
  | some p =>
    simp only [Option.bind_some]
    split
    · simp
      grind
    · simp

theorem auditPhase_inFlight (scan : PhaseScan) (id : CompilerPhaseId) :
    (auditPhase subject session scan id).inFlight=
      if (session.findPhase id).any (·.state.inFlight) then scan.inFlight+1 else scan.inFlight := by
  unfold auditPhase
  cases session.findPhase id with
  | none => rfl
  | some p =>
    have hs : p.state.inFlight=true ↔ p.state.retainsCommitAuthority ∧ p.state ≠ .pending ∧
        p.state ≠ .ready := by
      cases p.state <;> decide
    simp only [Option.any_some,hs]

theorem auditPhase_mayHoldProcess (scan : PhaseScan) (id : CompilerPhaseId) :
    (auditPhase subject session scan id).liveProcessPhases=
      if (session.findPhase id).any (·.state.mayHoldProcess) then scan.liveProcessPhases+1
      else scan.liveProcessPhases := by
  unfold auditPhase
  cases session.findPhase id with
  | none => rfl
  | some p => rfl

theorem auditPhases_silent : Silent watch (session.plan.order.foldl (auditPhase subject session)
      { report }).report ↔ Silent watch report ∧
    (∀ id ∈ session.plan.order,(watch .planDefect → ∃ p,session.findPhase id=some p) ∧
      ∀ p,session.findPhase id=some p → subject.PhaseSound watch session p) ∧
      (watch .duplicateLogicalPhaseCommit →
        (session.plan.order.filterMap session.commitOf).Nodup) := by
  have hphase := @auditPhase_silent watch subject session
  by_cases hw : watch .duplicateLogicalPhaseCommit
  · simp only [hw,true_implies] at hphase ⊢
    have h := @foldl_distinct _ PhaseScan _ _ (fun scan => Silent watch scan.report) _
      PhaseScan.commitIds _ (@mem_commitIds subject session) hphase
      session.plan.order { report }
    simpa using h
  · simp only [hw,false_implies,and_true] at hphase ⊢
    exact @foldl_silent _ PhaseScan _ (fun scan => Silent watch scan.report) _ hphase
      session.plan.order { report }

theorem auditPhases_working : (session.plan.order.foldl (auditPhase subject session)
      { report }).inFlight ≠ 0 ↔ ∃ id ∈ session.plan.order,
        (session.findPhase id).any (·.state.inFlight) := by
  rw [foldl_count auditPhase_inFlight]
  simp [List.countP_eq_zero]

theorem auditPhases_holding : (session.plan.order.foldl (auditPhase subject session)
      { report }).liveProcessPhases ≠ 0 ↔ ∃ id ∈ session.plan.order,
        (session.findPhase id).any (·.state.mayHoldProcess) := by
  rw [foldl_count auditPhase_mayHoldProcess]
  simp [List.countP_eq_zero]

theorem auditLeases_silent : Silent watch (within subject.leases (fun leases report =>
      leases.list.foldl (auditLease session) report) report) ↔ Silent watch report ∧
      ∀ leases ∈ subject.leases,∀ lease ∈ leases.list,watch .leaseOutstandingAfterRetire →
        lease.session.id=session.id → ¬lease.held :=
  within_silent fun leases report =>
    foldl_silent (fun report lease => by simp [auditLease]) leases.list report

theorem auditSession_silent : Silent watch (auditSession subject session report) ↔
    Silent watch report ∧ subject.SessionSound watch session := by
  have hphases := @auditPhases_silent watch subject session report
  have hworking := @auditPhases_working subject session report
  have hholding := @auditPhases_holding subject session report
  unfold auditSession
  generalize session.plan.order.foldl (auditPhase subject session) { report }=scan at *
  have hcomplete : (decide (session.state=.committed) &&
      (!session.allMandatoryCommitted || !session.candidatePresent))=false ↔
      (session.state=.committed → session.allMandatoryCommitted ∧ session.candidatePresent) := by
    by_cases hs : session.state=.committed <;> simp [hs]
  have hrecovery : (decide (session.recoveryState=.resolved) && !session.recovery.present)=false ↔
      (session.recoveryState=.resolved → session.recovery.present) := by
    by_cases hs : session.recoveryState=.resolved <;> simp [hs]
  have hprocess : (subject.liveProcesses.any (0<·) && decide (session.state=.retired))=false ↔
      (session.state=.retired → ∀ live ∈ subject.liveProcesses,live=0) := by
    by_cases hs : session.state=.retired <;> cases subject.liveProcesses <;> simp [hs]
  have hlive : (decide (session.state=.active) && decide (0<scan.inFlight) &&
      decide (scan.liveProcessPhases=0))=false ↔ (session.state=.active → scan.inFlight ≠ 0 →
        scan.liveProcessPhases ≠ 0) := by
    simp only [Bool.and_eq_false_iff,decide_eq_false_iff_not]
    grind
  have hleases (r : AuditReport) : Silent watch (if session.state=.retired ∨
        session.state=.committed then within subject.leases (fun leases report =>
          leases.list.foldl (auditLease session) report) r else r) ↔
      Silent watch r ∧ (watch .leaseOutstandingAfterRetire →
        session.state=.retired ∨ session.state=.committed → ∀ leases ∈ subject.leases,
          ∀ lease ∈ leases.list,lease.session.id=session.id → ¬lease.held) := by
    split
    · next hs =>
      rw [auditLeases_silent]
      grind
    · next hs => simp [hs]
  have hcandidate (r : AuditReport) (name : Bytes) : Silent watch (if session.candidatePresent then
      ((r.checked 2).flag (!session.candidate.completeLineage) .finalCandidateIncompleteLineage name
        (ascii "final candidate has incomplete lineage")).flag
          session.candidate.validationEvidence.isEmpty .candidateWithoutValidationEvidence name
          (ascii "final candidate carries no validation evidence") else r) ↔ Silent watch r ∧
        (watch .finalCandidateIncompleteLineage → session.candidatePresent →
          session.candidate.completeLineage) ∧
        (watch .candidateWithoutValidationEvidence → session.candidatePresent →
          session.candidate.validationEvidence ≠ []) := by
    split
    · next hs => simp [hs,and_assoc]
    · next hs => simp [hs]
  simp only [silent_flag,silent_checked,hleases,hcandidate,hlive,hphases,hworking,hholding,hcomplete,
    hrecovery,hprocess]
  constructor
  · rintro ⟨⟨⟨⟨⟨⟨⟨hr,hall,hdistinct⟩,hcomplete⟩,hlineage,hevidence⟩,hrecovery⟩,hwork⟩,hlease⟩,
      hprocess⟩
    exact ⟨hr,fun hw id hi => (hall id hi).1 hw,fun id hi => (hall id hi).2,hdistinct,hcomplete,
      hlineage,hevidence,hrecovery,hwork,hlease,hprocess⟩
  · rintro ⟨hr,hrecorded,hphases,hdistinct,hcomplete,hlineage,hevidence,hrecovery,hwork,hlease,
      hprocess⟩
    exact ⟨⟨⟨⟨⟨⟨⟨hr,fun id hi => ⟨fun hw => hrecorded hw id hi,hphases id hi⟩,hdistinct⟩,
      hcomplete⟩,hlineage,hevidence⟩,hrecovery⟩,hwork⟩,hlease⟩,hprocess⟩

theorem auditArtifact_silent (report : AuditReport) (a : IntermediateArtifact) :
    Silent watch (auditArtifact subject report a) ↔
      Silent watch report ∧ subject.ArtifactSound watch a := by
  have hs : Silent watch { report.checked 3 with artifactsAudited := report.artifactsAudited+1 } ↔
      Silent watch report := Iff.rfl
  have hcurrent : (!a.current && decide (a.authority=.authoritative))=false ↔
      (a.authority=.authoritative → a.current) := by
    by_cases ha : a.authority=.authoritative <;> simp [ha]
  have hupheld : (a.current && (decide (a.authority ≠ .authoritative) ||
      !a.state.isConsumable))=false ↔
      (a.current → a.authority=.authoritative ∧ a.state=.valid) := by
    cases a.current <;> simp [ArtifactState.isConsumable]
  unfold auditArtifact
  by_cases ha : a.authority=.authoritative
  · rw [if_pos ha]
    cases hp : a.provenance.present with
    | false =>
      simp only [Bool.not_false,if_true,silent_flag,hs,hcurrent,hupheld,Bool.true_eq_false]
      constructor
      · rintro ⟨⟨⟨hr,hcurrent⟩,hupheld⟩,hw⟩
        exact ⟨hr,hcurrent,hupheld,fun h => absurd h hw⟩
      · rintro ⟨hr,h⟩
        refine ⟨⟨⟨hr,h.current⟩,h.upheld⟩,fun hw => ?_⟩
        rw [(h.provenance hw ha).1] at hp
        cases hp
    | true =>
      have hfound : (subject.provenance.any fun log => (log.find a.provenance).isNone)=false ↔
          ∀ log ∈ subject.provenance,∃ record,log.find a.provenance=some record :=
        any_isNone_eq_false
      simp only [Bool.not_true,Bool.false_eq_true,if_false,silent_flag,hs,hcurrent,hupheld,hfound]
      constructor
      · rintro ⟨⟨⟨hr,hcurrent⟩,hupheld⟩,hfound⟩
        exact ⟨hr,hcurrent,hupheld,fun hw _ => ⟨hp,hfound hw⟩⟩
      · rintro ⟨hr,h⟩
        exact ⟨⟨⟨hr,h.current⟩,h.upheld⟩,fun hw => (h.provenance hw ha).2⟩
  · rw [if_neg ha]
    simp only [silent_flag,hs,hcurrent,hupheld]
    constructor
    · rintro ⟨⟨hr,hcurrent⟩,hupheld⟩
      exact ⟨hr,hcurrent,hupheld,fun _ h => absurd h ha⟩
    · rintro ⟨hr,h⟩
      exact ⟨⟨hr,h.current⟩,h.upheld⟩

theorem auditEntry_silent (s : AuditReport × List UInt64) (session : CompilerSession) :
    Silent watch (auditEntry subject s session).1 ↔ Silent watch s.1 ∧
      ((watch .sessionGenerationRegression → session.id.present ∧ session.generation.value ≠ 0) ∧
        (watch .planDefect → session.plan.nodes ≠ []) ∧
        (session.plan.nodes ≠ [] → subject.SessionSound watch session)) ∧
      (watch .duplicateSessionId → ∀ k,some session.id.value=some k → k ∉ s.2) := by
  have hs : Silent watch { s.1.checked 5 with sessionsAudited := s.1.sessionsAudited+1 } ↔
      Silent watch s.1 := Iff.rfl
  have he : (!session.id.present || decide (session.generation.value=0))=false ↔
      session.id.present ∧ session.generation.value ≠ 0 := by simp
  unfold auditEntry
  by_cases hn : session.plan.nodes=[]
  · simp only [if_pos hn,silent_flag,hs,he,decide_eq_false_iff_not]
    grind
  · simp only [if_neg hn,auditSession_silent,silent_flag,hs,he,decide_eq_false_iff_not]
    grind

theorem auditSessions_silent (sessions : List CompilerSession) :
    Silent watch (sessions.foldl (auditEntry subject) (report,[])).1 ↔ Silent watch report ∧
      (∀ s ∈ sessions,(watch .sessionGenerationRegression →
          s.id.present ∧ s.generation.value ≠ 0) ∧
        (watch .planDefect → s.plan.nodes ≠ []) ∧
        (s.plan.nodes ≠ [] → subject.SessionSound watch s)) ∧
      (watch .duplicateSessionId → (sessions.map (·.id.value)).Nodup) := by
  have hentry := @auditEntry_silent watch subject
  have hseen (s : AuditReport × List UInt64) (session : CompilerSession) (k : UInt64) :
      k ∈ (auditEntry subject s session).2 ↔ k ∈ s.2 ∨ some session.id.value=some k := by
    simp [auditEntry,eq_comm,or_comm]
  by_cases hw : watch .duplicateSessionId
  · simp only [hw,true_implies] at hentry ⊢
    have h := @foldl_distinct _ (AuditReport × List UInt64) _ _ (fun s => Silent watch s.1) _
      Prod.snd _ hseen hentry sessions (report,[])
    simpa using h
  · simp only [hw,false_implies,and_true] at hentry ⊢
    exact @foldl_silent _ (AuditReport × List UInt64) _ (fun s => Silent watch s.1) _ hentry
      sessions (report,[])

theorem audit_silent (now : UInt64) :
    Silent watch (audit now subject) ↔ subject.Sound watch := by
  have hartifacts (report : AuditReport) := @within_silent watch report _ subject.artifacts
    (fun artifacts report => artifacts.list.foldl (auditArtifact subject) report) _
    fun artifacts report => foldl_silent (@auditArtifact_silent watch subject) artifacts.list report
  have hnone : Silent watch { runtimeEpoch := subject.runtimeEpoch,completedAtNanos := now } := by
    simp [Silent]
  unfold audit
  cases hs : subject.sessions with
  | none =>
    simp only [silent_checked,silent_flag,hnone,true_and,decide_eq_false_iff_not,not_not]
    constructor
    · intro hdefects
      exact ⟨hdefects,by simp [hs]⟩
    · intro h
      exact h.defects
  | some sessions =>
    simp only [silent_checked,hartifacts,auditSessions_silent,silent_flag,hnone,true_and,
      decide_eq_false_iff_not,not_not]
    constructor
    · rintro ⟨⟨hdefects,hall,hdistinct⟩,hartifacts⟩
      refine ⟨hdefects,fun shown hshown => ?_⟩
      cases hs.symm.trans hshown
      exact ⟨hdistinct,fun hw s hs => (hall s hs).1 hw,fun hw s hs => (hall s hs).2.1 hw,
        fun s hs => (hall s hs).2.2,hartifacts⟩
    · rintro ⟨hdefects,hshown⟩
      obtain ⟨hdistinct,hestablished,hplanned,hsound,hartifacts⟩ := hshown sessions hs
      exact ⟨⟨hdefects,fun s hs => ⟨fun hw => hestablished hw s hs,fun hw => hplanned hw s hs,
        hsound s hs⟩,hdistinct⟩,hartifacts⟩

/-- The codes no check stands behind. -/
def unreported : List ViolationCode := [.none,.nonMonotonicGeneration,.multipleCurrentPhaseStates]

end InvariantAuditor

end CompilerFabric
