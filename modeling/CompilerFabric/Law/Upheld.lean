import CompilerFabric.Law.Audited
import CompilerFabric.Law.Isolation
import CompilerFabric.Law.Lawful

namespace CompilerFabric

open Base Base.Action

theorem PhaseRecord.Lawful.historySound {plan : PhasePlan} {p : PhaseRecord} (h : p.Lawful plan) :
    p.HistorySound := by
  obtain ⟨ts,hpath,hh⟩ := h.history
  rw [← List.take_append_drop (ts.length-kMaxPhaseTransitions) ts] at hpath
  obtain ⟨_,_,hpath⟩ := hpath.split
  rw [← keepLast,← hh] at hpath
  exact ⟨hpath.legal_of_mem,hpath.isChain,fun t ht => hpath.dst_of_getLast ht⟩

namespace InvariantAuditor

/-- What no run of a process gives the auditor to report. -/
def upheld : List ViolationCode :=
  [.duplicateSessionId,.sessionGenerationRegression,.planDefect,.illegalPhaseTransitionRecorded,
    .attemptHistoryUnbounded,.cancelledPhaseCommitted,.invalidFanIn]

end InvariantAuditor

namespace Runtime

variable {rt : Runtime}

theorem mem_listSessions {s : CompilerSession} (h : s ∈ rt.listSessions) :
    ∃ k : UInt64,rt.sessions[k]?=some s := by
  rw [listSessions,List.mem_insertionSort,List.mem_map] at h
  obtain ⟨⟨k,_⟩,hk,rfl⟩ := h
  exact ⟨k,Std.ExtTreeMap.mem_toList_iff_getElem?_eq_some.1 hk⟩

theorem Lawful.distinct (h : rt.Lawful) : (rt.listSessions.map (·.id.value)).Nodup := by
  have hperm := ((rt.sessions.toList.map (·.2)).perm_insertionSort
    fun a b => a.id.value ≤ b.id.value).map (·.id.value)
  rw [listSessions,hperm.nodup_iff,List.map_map]
  have hkeys : rt.sessions.toList.map ((·.id.value) ∘ (·.2))=rt.sessions.toList.map (·.1) := by
    refine List.map_congr_left fun e he => ?_
    exact (h ⟨e.1⟩ e.2 (Std.ExtTreeMap.mem_toList_iff_getElem?_eq_some.1 he)).id
  rw [hkeys,List.Nodup,List.pairwise_map]
  exact Std.ExtTreeMap.distinct_keys_toList.imp fun hc he => hc (by simp [he])

/-- What a lawful phase leaves the auditor to object to is not among `upheld`. -/
theorem phaseSound_of_lawful {subject : AuditSubject} {s : CompilerSession} {p : PhaseRecord}
    (h : p.Lawful s.plan) : subject.PhaseSound (· ∈ InvariantAuditor.upheld) s p where
  attempts _ := h.attempts
  history _ := h.historySound
  committed _ := ⟨fun hw => absurd hw (by decide),fun hw => absurd hw (by decide)⟩
  cancelled := by
    intro _ hs hc
    have hended := h.commit hc
    rw [hs] at hended
    exact absurd hended (by decide)
  fenced hw := absurd hw (by decide)
  retired hw := absurd hw (by decide)
  pending hw := absurd hw (by decide)
  process hw := absurd hw (by decide)
  running hw := absurd hw (by decide)
  diagnostics hw := absurd hw (by decide)
  toolchain hw := absurd hw (by decide)
  inputs hw := absurd hw (by decide)
  fanIn _ hs := h.fanIn (h.begun (.inr (h.committed hs)))
  outputs hw := absurd hw (by decide)

theorem Lawful.sound (h : rt.Lawful) (liveProcesses : Nat) :
    (rt.auditSubject liveProcesses).Sound (· ∈ InvariantAuditor.upheld) := by
  have lawful {s : CompilerSession} (hs : s ∈ rt.listSessions) : ∃ k,s.Lawful k := by
    obtain ⟨k,hk⟩ := mem_listSessions hs
    exact ⟨k,h ⟨k⟩ s hk⟩
  refine ⟨fun hw => absurd hw (by decide),?_⟩
  rintro _ ⟨⟩
  constructor
  case distinct => exact fun _ => h.distinct
  case established =>
    intro _ s hs
    obtain ⟨_,hl⟩ := lawful hs
    exact ⟨hl.present,hl.generation⟩
  case planned =>
    intro _ s hs
    obtain ⟨_,hl⟩ := lawful hs
    exact hl.planned
  case sessions =>
    intro s hs _
    obtain ⟨_,hl⟩ := lawful hs
    constructor
    case recorded => exact fun _ => hl.recorded
    case phases => exact fun id _ p hp => phaseSound_of_lawful (hl.phases id p hp)
    all_goals exact fun hw => absurd hw (by decide)
  case artifacts =>
    intro _ _ a _
    constructor
    all_goals exact fun hw => absurd hw (by decide)

end Runtime

/-- What a begun phase depends on carries its commit. -/
theorem CompilerSession.Lawful.dependency {k : UInt64} {s : CompilerSession} (hl : s.Lawful k)
    {pid : CompilerPhaseId} {p : PhaseRecord} (hp : s.findPhase pid=some p) (ha : p.attempts ≠ [])
    {dependency : CompilerPhaseId}
    (hd : Relation.TransGen (PlanData.Needs s.plan.nodes) pid dependency) :
    ∃ q,s.findPhase dependency=some q ∧ q.commit.present ∧
      q.state ∈ [PhaseState.committed,.fenced,.retired] := by
  have hn : (s.plan.nodes.map (·.id)).Nodup := by
    rcases s.plan.built with hb | hb
    · rw [show s.plan.nodes=[] from congrArg PlanData.nodes hb]
      exact List.nodup_nil
    · exact (PlanData.sound_of_build hb).2.distinct
  have step {a b : CompilerPhaseId} {x : PhaseRecord} (hx : s.findPhase a=some x)
      (hb : x.attempts ≠ []) (hneeds : PlanData.Needs s.plan.nodes a b) : s.Done b := by
    obtain ⟨node,hnode,rfl,hdep⟩ := hneeds
    exact hl.after _ x hx hb node (PlanData.find_of_mem hn hnode) b hdep
  have hdone : s.Done dependency := by
    induction hd with
    | single h => exact step hp ha h
    | tail _ h ih =>
      obtain ⟨q,hq,hc⟩ := ih
      exact step hq ((hl.phases _ q hq).begun (.inr hc)) h
  obtain ⟨q,hq,hc⟩ := hdone
  exact ⟨q,hq,hc,(hl.phases _ q hq).commit hc⟩

theorem ok_of_any {ε α : Type} {x : Except ε α} {f : α → Bool} (h : x.toOption.any f) :
    ∃ a,x=.ok a ∧ f a := by
  cases x with
  | error e => cases h
  | ok a => exact ⟨a,rfl,h⟩

namespace Sample

/-- A session of three phases, the last of which is reserved once the others have committed. -/
def joining : List Event :=
  .call (.discoverToolchain family) world::.call (.createSession request) forked::
    (phaseCalls 2 ⟨1⟩ forked++phaseCalls 3 ⟨2⟩ forked++(phaseCalls 4 ⟨3⟩ forked).take 2)

end Sample

namespace System

variable {sys : System} {events : List Event} {sid : CompilerSessionId} {pid : CompilerPhaseId}

/-- However the callers of a process interleave, its auditor never reports one of these codes. -/
theorem audit_upheld (hs : sys.rt.sessions=∅) (he : ∀ e ∈ events,e.inProcess)
    (hu : ∀ e ∈ events,e.unadopted) (liveProcesses : Nat) (now : UInt64) :
    ∀ v ∈ ((sys.run events).rt.audit liveProcesses now).violations,
      v.code ∉ InvariantAuditor.upheld :=
  (InvariantAuditor.audit_silent now).2 ((run_lawful hs he hu).sound liveProcesses)

theorem phaseCalls_calls {call : Nat} {phase : CompilerPhaseId} {w : World} :
    ∀ e ∈ Sample.phaseCalls call phase w,e.inProcess ∧ e.unadopted := by
  intro e he
  simp only [Sample.phaseCalls,List.mem_cons,List.mem_replicate] at he
  rcases he with rfl | ⟨_,rfl⟩ <;> exact ⟨trivial,trivial⟩

theorem joining_calls : ∀ e ∈ Sample.joining,e.inProcess ∧ e.unadopted := by
  intro e he
  simp only [Sample.joining,List.mem_cons,List.mem_append] at he
  rcases he with rfl | rfl | (h | h) | h
  · exact ⟨trivial,trivial⟩
  · exact ⟨trivial,trivial⟩
  · exact phaseCalls_calls e h
  · exact phaseCalls_calls e h
  · exact phaseCalls_calls e (List.mem_of_mem_take h)

theorem audit_upheld_of_joining :
    ((Sample.process.run Sample.joining).rt.audit 0 5).violations.all
      fun v => v.code ∉ InvariantAuditor.upheld := by
  have h := @audit_upheld Sample.process Sample.joining rfl (fun e he => (joining_calls e he).1)
    (fun e he => (joining_calls e he).2) 0 5
  exact List.all_eq_true.2 fun v hv => decide_eq_true (h v hv)

/-- In every run of a process no phase begins before everything its plan has it depend on was
committed: however its callers interleave, what has an attempt has all its dependencies carry a
commit, and stand where a commit leaves a phase. -/
theorem dependencies_committed (hs : sys.rt.sessions=∅) (he : ∀ e ∈ events,e.inProcess)
    (hu : ∀ e ∈ events,e.unadopted) {s : CompilerSession} (hf : (sys.run events).rt.find sid=some s)
    {p : PhaseRecord} (hp : s.findPhase pid=some p) (ha : p.attempts ≠ [])
    {dependency : CompilerPhaseId}
    (hd : Relation.TransGen (PlanData.Needs s.plan.nodes) pid dependency) :
    ∃ q,s.findPhase dependency=some q ∧ q.commit.present ∧
      q.state ∈ [PhaseState.committed,.fenced,.retired] :=
  (run_lawful hs he hu sid s hf).dependency hp ha hd

/-- The link of the third phase is reserved: both phases it depends on carry their commits. -/
theorem dependencies_committed_of_joining : ∃ s,
    (Sample.process.run Sample.joining).rt.find ⟨1⟩=some s ∧
    ∀ dependency ∈ ([⟨1⟩,⟨2⟩] : List CompilerPhaseId),∃ q,s.findPhase dependency=some q ∧ q.commit.present ∧
      q.state ∈ [PhaseState.committed,.fenced,.retired] := by
  have h : ((Sample.process.run Sample.joining).rt.find ⟨1⟩).any fun s =>
      (s.findPhase ⟨3⟩).any (·.attempts ≠ []) && ([⟨1⟩,⟨2⟩] : List CompilerPhaseId).all fun dependency =>
        s.plan.nodes.any fun node => node.id=⟨3⟩ && dependency ∈ node.dependsOn := by decide +kernel
  obtain ⟨s,hs,h⟩ := (Option.any_eq_true _ _).1 h
  rw [Bool.and_eq_true] at h
  obtain ⟨p,hp,ha⟩ := (Option.any_eq_true _ _).1 h.1
  refine ⟨s,hs,fun dependency hd => ?_⟩
  have hneeds := List.all_eq_true.1 h.2 dependency hd
  simp only [List.any_eq_true,Bool.and_eq_true,decide_eq_true_eq] at hneeds
  exact dependencies_committed rfl (fun e he => (joining_calls e he).1)
    (fun e he => (joining_calls e he).2) hs hp (of_decide_eq_true ha) (.single hneeds)

end System

end CompilerFabric
