import CompilerFabric.Ipc.Coordinator
import CompilerFabric.Law.Drivers
import CompilerFabric.Law.Upheld

namespace CompilerFabric

open Base Base.Action

namespace Runtime

variable {rt t : Runtime} {sid : CompilerSessionId} {pid : CompilerPhaseId}

/-- A retry that is refused reports the phase as it stands. -/
theorem beginRetry_reports {decision : RetryDecision} {report : PhaseRunReport}
    (h : beginRetry sid pid rt=(.ok (decision,some report),t)) :
    t=rt ∧ report.state=(rt.phaseStatusReport sid pid).state := by
  obtain ⟨_,_,hget,h⟩ := seq_eq_ok.1 h
  cases hget
  obtain ⟨session,_,hsession,h⟩ := seq_eq_ok.1 h
  obtain ⟨_,rfl⟩ := ofExcept_eq_ok.1 hsession
  obtain ⟨phase,_,hphase,h⟩ := seq_eq_ok.1 h
  obtain ⟨_,rfl⟩ := ofExcept_eq_ok.1 hphase
  split at h
  · obtain ⟨_,_,_,h⟩ := seq_eq_ok.1 h
    cases h
  · cases h
    exact ⟨rfl,rfl⟩

theorem commitPhase_existing {generation : CompilerPhaseGeneration} {invocation : Ref .invocation}
    {report : PhaseRunReport} (h : rt.commitPhase sid pid generation invocation=.ok (.existing report)) :
    report.state=(rt.phaseStatusReport sid pid).state := by
  simp only [commitPhase,do_eq_ok] at h
  obtain ⟨session,_,phase,_,_,_,_,_,h⟩ := h
  split at h
  · simp only [do_eq_ok] at h
    obtain ⟨_,_,h⟩ := h
    cases h
    rfl
  · simp only [do_eq_ok] at h
    obtain ⟨_,_,h⟩ := h
    cases h

end Runtime

namespace System

variable {sys t : System} {e : Event} {i : Nat} {w : World}

/-- What a step of the coordinator is to the process: nothing, a public call or a locked part of one, or
a snapshot. -/
inductive Served (sys : System) : System → Prop
  | idle : sys.Served sys
  | event {e : Event} (hr : e.regular) (hu : e.unadopted) : sys.Served (sys.apply e)
  | snapshot (persistence : Option PersistenceStore) (evidenceIds : IdAllocator .evidence) :
      sys.Served { sys with rt := { sys.rt with persistence,evidenceIds } }

theorem Served.lawful (h : sys.Served t) (hl : sys.rt.Lawful) : t.rt.Lawful := by
  cases h with
  | idle => exact hl
  | event hr hu => exact apply_lawful hr.1 hu hl
  | snapshot persistence evidenceIds => exact hl

theorem Served.regular (h : sys.Served t) (hr : sys.Regular) : t.Regular := by
  cases h with
  | idle => exact hr
  | event he hu => exact hr.apply he
  | snapshot persistence evidenceIds => exact ⟨hr.up,hr.named,
      fun i run hc => ⟨(hr.sound i run hc).limit,(hr.sound i run hc).start,(hr.sound i run hc).ceiling⟩,
      hr.keyed⟩

theorem Served.up (h : sys.Served t) : t.up=sys.up := by
  cases h with
  | idle => rfl
  | event he hu => exact apply_up he.1
  | snapshot persistence evidenceIds => rfl

/-- A phase call that has returned stays as it is. -/
theorem Served.ran {result : Result PhaseRunReport} (h : sys.Served t)
    (hc : sys.calls[i]?=some (.ran result)) : t.calls[i]?=some (.ran result) := by
  cases h with
  | idle => exact hc
  | event he hu => exact apply_returned he.1 hc (.inl ⟨result,rfl⟩)
  | snapshot persistence evidenceIds => exact hc

/-- A phase call that is told COMMITTED has seen it. -/
def Sees (t : System) (i : Nat) (sid : CompilerSessionId) (pid : CompilerPhaseId) : Prop :=
  (∃ run,t.calls[i]?=some (.phase run) ∧ run.session=sid ∧ run.phase=pid) ∨
  ∃ result,t.calls[i]?=some (.ran result) ∧ ∀ report,result=.ok report →
    report.state=.committed → t.rt.HasCommitted sid pid

/-- A phase call goes on with the same phase, or returns. -/
theorem Served.phase {run : PhaseRun} (h : sys.Served t) (hr : sys.Regular)
    (hc : sys.calls[i]?=some (.phase run)) : t.Sees i run.session run.phase := by
  cases h with
  | idle => exact .inl ⟨run,hc,rfl,rfl⟩
  | snapshot persistence evidenceIds => exact .inl ⟨run,hc,rfl,rfl⟩
  | @event e he hu =>
    cases hresumes : e.resumes i with
    | false => exact .inl ⟨run,apply_other he.1 hresumes hc,rfl,rfl⟩
    | true =>
      obtain ⟨w,rfl⟩ := Event.of_resumes hresumes
      obtain ⟨hrt,hcall⟩ := @apply_resume sys i w run (hr.up _ _ hc) hc
      rcases run.step_answers w (sys.rt.facing w) with ⟨run',hp⟩ | ⟨result,hp⟩
      · obtain ⟨he,_⟩ := PhaseRun.step_phase hp
        rw [hp] at hcall
        exact .inl ⟨run',hcall,by rw [he],by rw [he]⟩
      · rw [hp] at hcall
        refine .inr ⟨result,hcall,fun report hreport hs => ?_⟩
        subst hreport
        rw [hrt]
        exact run.step_ran hp (hr.named i run hc) hr.keyed hs

/-- What a phase call begins with. -/
theorem Sees.of_start {command : Command} {sid : CompilerSessionId} {pid : CompilerPhaseId}
    (hu : sys.up) (hcommand : command=.runPhase sid pid ∨ command=.retryPhase sid pid ∨
      ∃ generation invocation,command=.commitPhase sid pid generation invocation) :
    (sys.apply (.call command w)).Sees sys.calls.length sid pid := by
  have hcall : (sys.apply (.call command w)).calls[sys.calls.length]?=
      some (command.start w (sys.rt.facing w)).1 := by
    simp [apply,hu]
  have hrt : (sys.apply (.call command w)).rt=(command.start w (sys.rt.facing w)).2 := by
    simp [apply,hu]
  rcases hcommand with rfl | rfl | ⟨generation,invocation,rfl⟩
  · exact .inl ⟨_,hcall,rfl,rfl⟩
  · rcases hx : Runtime.beginRetry sid pid (sys.rt.facing w) with ⟨result,found⟩
    rw [Command.start,hx] at hcall hrt
    cases result with
    | error e => exact .inr ⟨_,hcall,fun report hreport => by cases hreport⟩
    | ok outcome =>
      obtain ⟨decision,refused⟩ := outcome
      cases refused with
      | none => exact .inl ⟨_,hcall,rfl,rfl⟩
      | some report =>
        obtain ⟨rfl,hstate⟩ := Runtime.beginRetry_reports hx
        refine .inr ⟨_,hcall,fun found hfound hs => ?_⟩
        cases hfound
        rw [hrt]
        exact Runtime.phaseStatusReport_committed (hstate.symm.trans hs)
  · cases hx : (sys.rt.facing w).commitPhase sid pid generation invocation with
    | error e =>
      rw [Command.start,hx] at hcall
      exact .inr ⟨_,hcall,fun report hreport => by cases hreport⟩
    | ok entry =>
      rw [Command.start,hx] at hcall hrt
      cases entry with
      | proceed r => exact .inl ⟨_,hcall,rfl,rfl⟩
      | existing report =>
        refine .inr ⟨_,hcall,fun found hfound hs => ?_⟩
        cases hfound
        rw [hrt]
        exact Runtime.phaseStatusReport_committed ((Runtime.commitPhase_existing hx).symm.trans hs)

end System

namespace Sample

/-- A client asks for a session and for the phase of it. -/
def served : List Coordinator.Event :=
  .accept::
  .receive 0 { type := .createSession,requestId := 1,payload := encodeCompileRequest request }
    { world }::
  .proceed 0 { world }::.proceed 0 { world }::
  .receive 0 { Cli.phaseRequest .startPhase ⟨1⟩ ⟨1⟩ with requestId := 2 } { world }::
  List.replicate 9 (.resume 2 world)++[.proceed 0 { world }]

def coordinator : Coordinator := .start [] options [adapter] [] world

end Sample

namespace Coordinator

variable {c : Coordinator} {e : Event} {events : List Event} {peer : Nat} {request : Message} {t : Turn}
  {order : Order} {i : Nat} {sid : CompilerSessionId} {pid : CompilerPhaseId}

theorem run_snoc (c : Coordinator) (events : List Event) (e : Event) :
    c.run (events++[e])=(c.run events).apply e := List.foldl_append

theorem run_append (c : Coordinator) (xs ys : List Event) : c.run (xs++ys)=(c.run xs).run ys :=
  List.foldl_append

theorem call_served {command : Command} {duty : Duty} (hc : ∀ session,command ≠ .adoptSession session) :
    c.sys.Served (c.call peer request t command duty).sys := by
  have hevent : (CompilerFabric.Event.call command t.world).regular ∧
      (CompilerFabric.Event.call command t.world).unadopted := by
    cases command with
    | adoptSession session => exact absurd rfl (hc session)
    | _ => exact ⟨⟨trivial,trivial⟩,trivial⟩
  exact .event hevent.1 hevent.2

theorem serve_served : c.sys.Served (c.serve peer request t order).sys := by
  cases order with
  | createSession wanted =>
    simp only [serve]
    split
    · exact call_served (by simp)
    · exact call_served (by simp)
  | refreshToolchain | invalidateToolchain | recoverSession | runSession | startPhase | retryPhase
  | commitPhase | reportOutput | cancelPhase => exact call_served (by simp)
  | snapshot =>
    simp only [serve,Runtime.snapshot]
    split
    · exact .snapshot ..
    · split
      · exact .snapshot ..
      · exact .snapshot ..
  | hello | ping | querySession | sessionList | queryAuthority | queryDiagnostics | audit | shutdown =>
    exact .idle

theorem proceed_served {h : Handling} {duty : Duty} {call : Call} :
    c.sys.Served (c.proceed peer t h duty call).sys := by
  unfold proceed
  split
  · split
    · exact call_served (by simp)
    · exact .idle
  all_goals exact .idle

/-- A handler goes on where its call has come to something. -/
theorem apply_proceed (c : Coordinator) (peer : Nat) (t : Turn) :
    c.apply (.proceed peer t)=c ∨ ∃ p h call,c.peers[peer]?=some p ∧ p.handling=some h ∧
      c.sys.calls[h.call]?=some call ∧ c.apply (.proceed peer t)=c.proceed peer t h h.duty call := by
  simp only [apply]
  split
  · exact .inl rfl
  · next h hh =>
    obtain ⟨p,hp,hh⟩ := Option.bind_eq_some_iff.1 hh
    cases hcall : c.sys.calls[h.call]? with
    | none => exact .inl rfl
    | some call => exact .inr ⟨p,h,call,hp,hh,hcall,rfl⟩

/-- Whatever comes in, the process is dealt with through its public calls and snapshots. -/
theorem apply_served (c : Coordinator) (e : Event) : c.sys.Served (c.apply e).sys := by
  cases e with
  | accept => exact .idle
  | receive peer request t =>
    simp only [apply,receive]
    split
    · split
      · exact serve_served
      · exact .idle
    · exact .idle
  | proceed peer t =>
    rcases apply_proceed c peer t with hstill | ⟨_,_,_,_,_,_,hgoes⟩
    · rw [hstill]
      exact .idle
    · rw [hgoes]
      exact proceed_served
  | resume index w => exact .event (e := .resume index w) ⟨trivial,trivial⟩ trivial

theorem run_lawful (hl : c.sys.rt.Lawful) : (c.run events).sys.rt.Lawful := by
  induction events using List.reverseRecOn with
  | nil => exact hl
  | append_singleton events e ih =>
    rw [run_snoc]
    exact (apply_served _ e).lawful ih

theorem run_regular (hr : c.sys.Regular) : (c.run events).sys.Regular := by
  induction events using List.reverseRecOn with
  | nil => exact hr
  | append_singleton events e ih =>
    rw [run_snoc]
    exact (apply_served _ e).regular ih

theorem run_up : (c.run events).sys.up=c.sys.up := by
  induction events using List.reverseRecOn with
  | nil => rfl
  | append_singleton events e ih =>
    rw [run_snoc,(apply_served _ e).up,ih]

theorem run_ran {result : Result PhaseRunReport} (hc : c.sys.calls[i]?=some (.ran result)) :
    (c.run events).sys.calls[i]?=some (.ran result) := by
  induction events using List.reverseRecOn with
  | nil => exact hc
  | append_singleton events e ih =>
    rw [run_snoc]
    exact (apply_served _ e).ran ih

/-- A phase call that comes back COMMITTED has seen its phase so. -/
theorem run_sees (hr : c.sys.Regular) (hs : c.sys.Sees i sid pid) {report : PhaseRunReport}
    (hc : (c.run events).sys.calls[i]?=some (.ran (.ok report))) (hreport : report.state=.committed) :
    ∃ k ≤ events.length,(c.run (events.take k)).sys.rt.HasCommitted sid pid := by
  induction events generalizing c with
  | nil =>
    rcases hs with ⟨run,hrun,_⟩ | ⟨result,hresult,hcommitted⟩
    · cases hrun.symm.trans hc
    · cases hresult.symm.trans hc
      exact ⟨0,Nat.le_refl _,hcommitted report rfl hreport⟩
  | cons e events ih =>
    rcases hs with ⟨run,hrun,rfl,rfl⟩ | ⟨result,hresult,hcommitted⟩
    · obtain ⟨k,hk,h⟩ := ih ((apply_served c e).regular hr) ((apply_served c e).phase hr hrun) hc
      exact ⟨k+1,Nat.succ_le_succ hk,h⟩
    · have hstay := @run_ran c (e::events) i result hresult
      cases hstay.symm.trans hc
      exact ⟨0,Nat.zero_le _,hcommitted report rfl hreport⟩

/-- A coordinator without sessions starts lawfully. -/
theorem run_lawful_of_empty (hs : c.sys.rt.sessions=∅) (events : List Event) :
    (c.run events).sys.rt.Lawful :=
  run_lawful fun sid s h => by
    have h : c.sys.rt.sessions[sid.value]?=some s := h
    rw [hs] at h
    simp at h

/-- Whatever its peers send it and however its handlers interleave, the runtime of a coordinator keeps
what a process keeps: its auditor never reports one of these codes, and no phase has begun before
everything it depends on was committed. -/
theorem serves_lawfully (hs : c.sys.rt.sessions=∅) (events : List Event) :
    (∀ (liveProcesses : Nat) (now : UInt64),
      ∀ v ∈ ((c.run events).sys.rt.audit liveProcesses now).violations,
        v.code ∉ InvariantAuditor.upheld) ∧
    ∀ sid s,(c.run events).sys.rt.find sid=some s → ∀ pid p,s.findPhase pid=some p → p.attempts ≠ [] →
      ∀ dependency,Relation.TransGen (PlanData.Needs s.plan.nodes) pid dependency →
        ∃ q,s.findPhase dependency=some q ∧ q.commit.present ∧
          q.state ∈ [PhaseState.committed,.fenced,.retired] := by
  have hl := run_lawful_of_empty hs events
  exact ⟨fun liveProcesses now => (InvariantAuditor.audit_silent now).2 (hl.sound liveProcesses),
    fun sid s hf pid p hp ha dependency hd => (hl sid s hf).dependency hp ha hd⟩

theorem serves_lawfully_of_served :
    ((Sample.coordinator.run Sample.served).sys.rt.audit 0 5).violations.all
      fun v => v.code ∉ InvariantAuditor.upheld := by
  obtain ⟨h,_⟩ := @serves_lawfully Sample.coordinator rfl Sample.served
  exact List.all_eq_true.2 fun v hv => decide_eq_true (h 0 5 v hv)

end Coordinator

end CompilerFabric
