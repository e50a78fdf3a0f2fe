import CompilerFabric.Law.Attempt

namespace CompilerFabric

open Base Base.Action

/-- The next locked part of a `run_phase` returns early: nothing has room for what it registers,
the adapter has gone or fails, or the re-probe shows another toolchain. -/
def PhaseRun.strands (run : PhaseRun) (w : World) (rt : Runtime) : Bool :=
  match run.pc with
  | .record _ report => !rt.diagnostics.hasRoom ||
      (report.completed && !rt.artifacts.hasRoom report.outputs.length)
  | .validate _ _ => !(rt.find run.session).any fun s =>
      (rt.findAdapterByName s.adapterName).isSome && (rt.buildRequest s).toBool
  | .judge _ _ => !w.evidence.toBool
  | .commit _ _ => (rt.find run.session).any (rt.unknownToolchain w)
  | _ => false

namespace PhaseRun

variable {run : PhaseRun} {w : World} {rt t : Runtime} {r : Reservation}

/-- The reservation is the one of the run. -/
def names (run : PhaseRun) (r : Reservation) : Prop := r.session=run.session ∧ r.phase=run.phase

/-- Where the attempt of a run is between two of its locked parts. -/
def Attends (run : PhaseRun) (rt : Runtime) : Prop :=
  match run.pc with
  | .reserve => False
  | .prepare r => run.names r ∧ rt.Underway r .preparing
  | .execute r => run.names r ∧ rt.Underway r .running
  | .record r report => run.names r ∧
      ∃ a,(a=.running ∨ a=.preparing ∧ report.completed=false) ∧ rt.Underway r a
  | .inspect r _ => run.names r ∧ ∃ a,(a=.validating ∨ a=.failed) ∧ rt.Underway r a
  | .reproduce r _ | .verify r _ | .refuse r _ | .validate r _ | .judge r _ =>
      run.names r ∧ rt.Underway r .validating
  | .commit r _ => run.names r ∧ rt.Underway r .commitReady

/-- The run goes on, or it returns and has left its phase in flight just if it strands it. -/
def Proceeds (run : PhaseRun) (w : World) (rt : Runtime) : Prop :=
  (∃ run',(run.step w rt).1=.phase run' ∧ run'.session=run.session ∧ run'.phase=run.phase ∧
    run'.Attends (run.step w rt).2 ∧ run.strands w rt=false) ∨
  ∃ result p,(run.step w rt).1=.ran result ∧
    (run.step w rt).2.phase run.session run.phase=some p ∧ p.state.inFlight=run.strands w rt

theorem proceeds_goto {pc : PhasePc} (hx : run.step w rt=(run.goto pc,t))
    (ha : { run with pc }.Attends t) (hs : run.strands w rt=false) : run.Proceeds w rt := by
  refine .inl ⟨{ run with pc },?_,rfl,rfl,?_,hs⟩
  · rw [hx]
    rfl
  · rw [hx]
    exact ha

theorem proceeds_ran {result : Result PhaseRunReport} (hx : run.step w rt=(.ran result,t))
    (hp : ∃ p,t.phase run.session run.phase=some p ∧ p.state.inFlight=run.strands w rt) :
    run.Proceeds w rt := by
  have ⟨p,hp,hs⟩ := hp
  refine .inr ⟨result,p,?_,?_,hs⟩
  · rw [hx]
  · rw [hx]
    exact hp

theorem stopped_named {b : Bool} (hn : run.names r) (h : t.Stopped r.session r.phase)
    (hb : b=false) : ∃ p,t.phase run.session run.phase=some p ∧ p.state.inFlight=b := by
  rw [← hn.1,← hn.2,hb]
  exact h

theorem stranded_named {b : Bool} (hn : run.names r) (h : t.Stranded r) (hb : b=true) :
    ∃ p,t.phase run.session run.phase=some p ∧ p.state.inFlight=b := by
  have ⟨a,ha,p,hp,_,hs⟩ := h
  rw [← hn.1,← hn.2,hb]
  exact ⟨p,hp,by rw [hs]; exact ha⟩

theorem record_proceeds {report : ExecutionReport} (hpc : run.pc=.record r report)
    (h : run.Attends rt) (hj : (run.step w rt).2.persistFailures=rt.persistFailures) :
    run.Proceeds w rt := by
  unfold Attends at h
  rw [hpc] at h
  have ⟨hn,a,ha,hu⟩ := h
  have hcompleted : (rt.withDiagnostics w r report).completed=report.completed :=
    Runtime.withDiagnostics_completed report
  have houtputs : (rt.withDiagnostics w r report).outputs=report.outputs :=
    Runtime.withDiagnostics_outputs report
  have hstrands : run.strands w rt=(!rt.diagnostics.hasRoom ||
      (report.completed && !rt.artifacts.hasRoom report.outputs.length)) := by
    unfold strands
    rw [hpc]
  have hstep : run.step w rt=after (Runtime.recordExecution w r (rt.withDiagnostics w r report) rt)
      fun _ _ => run.goto (.inspect r (rt.withDiagnostics w r report)) := by
    unfold step
    rw [hpc]
  have ⟨hok,herr⟩ := Runtime.recordExecution_triple (w := w) (rt.withDiagnostics w r report)
    (by rwa [hcompleted]) rt ⟨rfl,⟨⟨hu,Nat.le_refl _⟩,rfl⟩⟩
  rw [hcompleted,houtputs] at hok herr
  cases hx : Runtime.recordExecution w r (rt.withDiagnostics w r report) rt with
  | mk result t =>
    rw [hx] at hstep
    cases result with
    | ok _ =>
      have ⟨hd,hc,hf⟩ := hok _ t hx
      refine proceeds_goto hstep ?_ ?_
      · refine ⟨hn,?_⟩
        cases hcomp : report.completed with
        | true => exact ⟨_,.inl rfl,(hc hcomp).2⟩
        | false => exact ⟨_,.inr rfl,hf hcomp⟩
      · rw [hstrands,hd]
        cases hcomp : report.completed with
        | true =>
          rw [(hc hcomp).1]
          rfl
        | false => rfl
    | error e =>
      rw [hstep] at hj
      have hj : t.persistFailures=rt.persistFailures := hj
      rcases herr e t hx with hlt | ⟨hroom,hs⟩
      · exact absurd hj (Nat.ne_of_gt hlt)
      · refine proceeds_ran hstep (stranded_named hn hs ?_)
        rw [hstrands]
        rcases hroom with hd | ⟨hc,hk⟩
        · rw [hd]
          rfl
        · rw [hc,hk]
          simp

theorem inspect_proceeds {report : ExecutionReport} (hpc : run.pc=.inspect r report)
    (h : run.Attends rt) : run.Proceeds w rt := by
  unfold Attends at h
  rw [hpc] at h
  have ⟨hn,a,ha,hu⟩ := h
  have hstrands : run.strands w rt=false := by
    unfold strands
    rw [hpc]
  have ⟨session,phase,hs,hp,_,hstate⟩ := hu.found
  rw [hn.1] at hs
  rw [hn.2] at hp
  have hfound : ((rt.find run.session).bind fun s => (s.findPhase run.phase).map fun p => (s,p))=
      some (session,phase) := by rw [hs,Option.bind_some,hp,Option.map_some]
  rcases ha with rfl | rfl
  · have hstep : run.step w rt=(run.goto (.reproduce r report),rt) := by
      unfold step
      rw [hpc]
      dsimp only
      rw [hfound]
      dsimp only
      rw [if_neg (by rw [hstate]; decide)]
    exact proceeds_goto hstep ⟨hn,hu⟩ hstrands
  · have hstep : run.step w rt=(run.finish { rt.phaseStatusReport run.session run.phase with
        retry := rt.retryDecision session phase },rt) := by
      unfold step
      rw [hpc]
      dsimp only
      rw [hfound]
      dsimp only
      rw [if_pos hstate]
    refine proceeds_ran hstep ⟨phase,?_,?_⟩
    · rw [Runtime.phase,hs,Option.bind_some,hp]
    · rw [hstate,hstrands]
      rfl

theorem validate_proceeds {report : ExecutionReport} (hpc : run.pc=.validate r report)
    (h : run.Attends rt) : run.Proceeds w rt := by
  unfold Attends at h
  rw [hpc] at h
  obtain ⟨hn,hu⟩ := h
  obtain ⟨session,phase,hs,hp,_⟩ := hu.found
  have hstrands : run.strands w rt=!(rt.beginValidation r).toBool := by
    unfold strands
    rw [hpc]
    dsimp only
    have hbegin : rt.beginValidation r=(ensure (rt.findAdapterByName session.adapterName).isSome
        (.of .unsupported "no adapter is registered for this session") >>= fun _ =>
          rt.buildRequest session) := by
      rw [Runtime.beginValidation,(Runtime.requireSession_ok r.session).2 hs]
      show (session.requirePhase r.phase _ >>= _)=_
      rw [(Runtime.requirePhase_ok r.phase).2 hp]
      rfl
    rw [← hn.1,hs,Option.any_some,hbegin]
    cases (rt.findAdapterByName session.adapterName).isSome <;> rfl
  cases hx : rt.beginValidation r with
  | ok _ =>
    rw [hx] at hstrands
    have hstep : run.step w rt=(run.goto (.judge r report),rt) := by
      unfold step
      rw [hpc]
      dsimp only
      rw [hx]
    exact proceeds_goto hstep ⟨hn,hu⟩ hstrands
  | error e =>
    rw [hx] at hstrands
    have hstep : run.step w rt=(.ran (.error e),rt) := by
      unfold step
      rw [hpc]
      dsimp only
      rw [hx]
    exact proceeds_ran hstep (stranded_named hn ⟨_,rfl,hu⟩ hstrands)

theorem judge_proceeds {report : ExecutionReport} (hpc : run.pc=.judge r report)
    (h : run.Attends rt) (hj : (run.step w rt).2.persistFailures=rt.persistFailures) :
    run.Proceeds w rt := by
  unfold Attends at h
  rw [hpc] at h
  have ⟨hn,hu⟩ := h
  have hstrands : run.strands w rt=!w.evidence.toBool := by
    unfold strands
    rw [hpc]
  cases hw : w.evidence with
  | error e =>
    rw [hw] at hstrands
    have hstep : run.step w rt=(.ran (.error e),rt) := by
      unfold step
      rw [hpc]
      dsimp only
      rw [hw]
    exact proceeds_ran hstep (stranded_named hn ⟨_,rfl,hu⟩ hstrands)
  | ok evidence =>
    rw [hw] at hstrands
    have ⟨hok,herr⟩ := Runtime.applyEvidence_triple (w := w) evidence rt ⟨hu,Nat.le_refl _⟩
    have hstep : run.step w rt=after (Runtime.applyEvidence w r evidence rt) fun _ rt' =>
        if evidence.accepted then run.goto (.commit r report)
        else if run.direct then run.finish (rt'.phaseStatusReport run.session run.phase)
        else run.finish { rt'.phaseStatusReport run.session run.phase with
          status := evidence.refusal
          detail := evidence.detail } := by
      unfold step
      rw [hpc]
      dsimp only
      rw [hw]
    cases hx : Runtime.applyEvidence w r evidence rt with
    | mk result t =>
      rw [hx] at hstep
      cases result with
      | error e =>
        rw [hstep] at hj
        have hj : t.persistFailures=rt.persistFailures := hj
        exact absurd hj (Nat.ne_of_gt (herr e t hx))
      | ok _ =>
        have hcase := hok _ t hx
        cases ha : evidence.accepted with
        | true =>
          rw [ha] at hcase hstep
          exact proceeds_goto hstep ⟨hn,hcase⟩ hstrands
        | false =>
          rw [ha] at hcase hstep
          have hstopped : t.Stopped r.session r.phase := by
            have ⟨p,hp,_,hs⟩ := hcase
            exact ⟨p,hp,by rw [hs]; rfl⟩
          have hp := stopped_named hn hstopped hstrands
          cases hd : run.direct with
          | true =>
            rw [hd] at hstep
            exact proceeds_ran hstep hp
          | false =>
            rw [hd] at hstep
            exact proceeds_ran hstep hp

theorem commit_proceeds {report : ExecutionReport} (hpc : run.pc=.commit r report)
    (h : run.Attends rt) (hj : (run.step w rt).2.persistFailures=rt.persistFailures) :
    run.Proceeds w rt := by
  unfold Attends at h
  rw [hpc] at h
  have ⟨hn,hu⟩ := h
  have hstrands : run.strands w rt=(rt.find r.session).any (rt.unknownToolchain w) := by
    unfold strands
    rw [hpc,hn.1]
  have hstep : run.step w rt=after (Runtime.commitReserved w r report rt)
      fun report _ => run.finish report := by
    unfold step
    rw [hpc]
  have ⟨hok,herr⟩ := Runtime.commitReserved_triple (w := w) report _ rt
    ⟨hstrands.symm,⟨hu,Nat.le_refl _⟩⟩
  cases hx : Runtime.commitReserved w r report rt with
  | mk result t =>
    rw [hx] at hstep
    cases result with
    | ok _ =>
      have ⟨hc,hs⟩ := hok _ t hx
      exact proceeds_ran hstep (stopped_named hn hs hc)
    | error e =>
      rw [hstep] at hj
      have hj : t.persistFailures=rt.persistFailures := hj
      rcases herr e t hx with hlt | hs
      · exact absurd hj (Nat.ne_of_gt hlt)
      · cases hc : run.strands w rt with
        | true =>
          rw [hc] at hs
          refine proceeds_ran hstep ?_
          rw [hc]
          exact stranded_named hn hs rfl
        | false =>
          rw [hc] at hs
          refine proceeds_ran hstep ?_
          rw [hc]
          exact stopped_named hn hs rfl

theorem prepare_proceeds (hpc : run.pc=.prepare r) (h : run.Attends rt) :
    run.Proceeds w rt := by
  unfold Attends at h
  rw [hpc] at h
  obtain ⟨hn,hu⟩ := h
  have hstrands : run.strands w rt=false := by
    unfold strands
    rw [hpc]
  obtain ⟨hok,herr⟩ := Runtime.prepare_triple (w := w) rt ⟨hu,Nat.le_refl _⟩
  cases hx : Runtime.prepare w r rt with
  | mk result t =>
    cases result with
    | ok _ =>
      have hstep : run.step w rt=(run.goto (.execute r),t) := by
        unfold step
        rw [hpc]
        dsimp only
        rw [hx]
      exact proceeds_goto hstep ⟨hn,hok _ t hx⟩ hstrands
    | error e =>
      have hstep : run.step w rt=(run.goto (.record r (Runtime.unlaunched r e)),t) := by
        unfold step
        rw [hpc]
        dsimp only
        rw [hx]
      obtain ⟨a,ha,hu⟩ := herr e t hx
      refine proceeds_goto hstep ⟨hn,a,?_,hu⟩ hstrands
      rcases List.mem_cons.1 ha with rfl | ha
      · exact .inr ⟨rfl,rfl⟩
      · exact .inl (List.mem_singleton.1 ha)

/-- Between two locked parts without interference of others: a run whose persists succeed goes on
or returns, and leaves its phase in flight just when it strands it. -/
theorem step_proceeds (h : run.Attends rt)
    (hj : (run.step w rt).2.persistFailures=rt.persistFailures) : run.Proceeds w rt := by
  have attends := h
  unfold Attends at attends
  cases hpc : run.pc with
  | reserve =>
    rw [hpc] at attends
    exact attends.elim
  | prepare r => exact prepare_proceeds hpc h
  | execute r =>
    rw [hpc] at attends
    have hstrands : run.strands w rt=false := by
      unfold strands
      rw [hpc]
    cases hw : w.execution with
    | error e =>
      let unexecuted : ExecutionReport :=
        { status := e.code
          detail := e.message
          workspaceRoot := r.workspace.root
          workspaceMarker := r.workspace.markerDigest }
      have hstep : run.step w rt=(run.goto (.record r unexecuted),rt) := by
        unfold step
        rw [hpc]
        dsimp only
        rw [hw]
      exact proceeds_goto hstep ⟨attends.1,_,.inl rfl,attends.2⟩ hstrands
    | ok execution =>
      have hstep : run.step w rt=(run.goto (.record r execution),
          (Runtime.noteProcess r execution rt).2) := by
        unfold step
        rw [hpc]
        dsimp only
        rw [hw]
      exact proceeds_goto hstep
        ⟨attends.1,_,.inl rfl,Runtime.noteProcess_underway execution attends.2⟩ hstrands
  | record r report => exact record_proceeds hpc h hj
  | inspect r report => exact inspect_proceeds hpc h
  | reproduce r report =>
    rw [hpc] at attends
    have hstrands : run.strands w rt=false := by
      unfold strands
      rw [hpc]
    by_cases hr : rt.reproducibilityRequired run.session
    · have hstep : run.step w rt=(run.goto (.verify r report),rt) := by
        unfold step
        rw [hpc]
        exact if_pos hr
      exact proceeds_goto hstep attends hstrands
    · have hstep : run.step w rt=(run.goto (.validate r report),rt) := by
        unfold step
        rw [hpc]
        exact if_neg hr
      exact proceeds_goto hstep attends hstrands
  | verify r report =>
    rw [hpc] at attends
    have hstrands : run.strands w rt=false := by
      unfold strands
      rw [hpc]
    cases hv : rt.reproducibilityVerify w r report.outputs with
    | ok _ =>
      have hstep : run.step w rt=(run.goto (.validate r report),rt) := by
        unfold step
        rw [hpc]
        dsimp only
        rw [hv]
      exact proceeds_goto hstep attends hstrands
    | error e =>
      have hstep : run.step w rt=(run.goto (.refuse r e),rt) := by
        unfold step
        rw [hpc]
        dsimp only
        rw [hv]
      exact proceeds_goto hstep attends hstrands
  | refuse r e =>
    rw [hpc] at attends
    have hstrands : run.strands w rt=false := by
      unfold strands
      rw [hpc]
    have ⟨hok,herr⟩ := Runtime.refuseDivergent_triple (w := w) e rt ⟨attends.2,Nat.le_refl _⟩
    have hstep : run.step w rt=after (Runtime.refuseDivergent w r e rt) fun _ t =>
        run.finish { t.phaseStatusReport run.session run.phase with
          status := e.code
          detail := e.message } := by
      unfold step
      rw [hpc]
    cases hx : Runtime.refuseDivergent w r e rt with
    | mk result t =>
      rw [hx] at hstep
      cases result with
      | ok _ => exact proceeds_ran hstep (stopped_named attends.1 (hok _ t hx) hstrands)
      | error e' =>
        rw [hstep] at hj
        exact absurd hj (Nat.ne_of_gt (herr e' t hx))
  | validate r report => exact validate_proceeds hpc h
  | judge r report => exact judge_proceeds hpc h hj
  | commit r report => exact commit_proceeds hpc h hj

/-- What others do besides the phase does not move the run. -/
theorem attends_of_phase (h : run.Attends rt)
    (hp : t.phase run.session run.phase=rt.phase run.session run.phase) : run.Attends t := by
  have under {r : Reservation} {a : PhaseState} (hn : run.names r) (hu : rt.Underway r a) :
      t.Underway r a := by
    have ⟨p,hf,hr⟩ := hu
    refine ⟨p,?_,hr⟩
    rw [hn.1,hn.2] at hf ⊢
    rw [hp,hf]
  unfold Attends at h ⊢
  cases hpc : run.pc with
  | reserve =>
    rw [hpc] at h
    exact h.elim
  | record r report | inspect r report =>
    rw [hpc] at h
    have ⟨hn,a,ha,hu⟩ := h
    exact ⟨hn,a,ha,under hn hu⟩
  | prepare r | execute r | reproduce r report | verify r report | refuse r e | validate r report
  | judge r report | commit r report =>
    rw [hpc] at h
    exact ⟨h.1,under h.1 h.2⟩

end PhaseRun

/-- A `run_phase` or `retry_phase` in progress. -/
def Call.phaseRun : Call → Option PhaseRun
  | .phase run => some run
  | _ => none

/-- What a `run_phase` or `retry_phase` has returned. -/
def Call.answer : Call → Option (Result PhaseRunReport)
  | .ran result => some result
  | _ => none

theorem Call.of_phaseRun {found : Option Call} {run : PhaseRun}
    (h : found.bind Call.phaseRun=some run) : found=some (.phase run) := by
  have ⟨call,hf,hc⟩ := Option.bind_eq_some_iff.1 h
  cases call with
  | phase run' =>
    cases hc
    exact hf
  | _ => cases hc

theorem Call.of_answer {found : Option Call} {result : Result PhaseRunReport}
    (h : found.bind Call.answer=some result) : found=some (.ran result) := by
  have ⟨call,hf,hc⟩ := Option.bind_eq_some_iff.1 h
  cases call with
  | ran result' =>
    cases hc
    exact hf
  | _ => cases hc

/-- The event is the next locked part of the call. -/
def Event.resumes (n : Nat) : Event → Bool
  | .resume index _ => index=n
  | _ => false

theorem Event.eq_resume {e : Event} {n : Nat} (h : e.resumes n=true) : ∃ w,e=.resume n w := by
  cases e with
  | resume index w =>
    obtain rfl : index=n := of_decide_eq_true h
    exact ⟨w,rfl⟩
  | call command w => cases h
  | restart options adapters w => cases h

namespace System

variable {sys : System} {e : Event} {events : List Event} {n : Nat} {sid : CompilerSessionId}
  {pid : CompilerPhaseId} {w : World}

/-- Only the call touches the phase, and no persist fails. -/
def undisturbed (n : Nat) (sid : CompilerSessionId) (pid : CompilerPhaseId) (sys : System)
    (e : Event) : Bool :=
  (e.resumes n || (sys.apply e).rt.phase sid pid=sys.rt.phase sid pid) &&
    (sys.apply e).rt.persistFailures=sys.rt.persistFailures

/-- The event is an early return of the call that leaves its phase in flight. -/
def strands (n : Nat) (sys : System) : Event → Bool
  | .resume index w => index=n && sys.up && match sys.calls[index]? with
      | some (.phase run) => run.strands w sys.rt
      | _ => false
  | _ => false

theorem strands_other (h : e.resumes n=false) : sys.strands n e=false := by
  cases e with
  | resume index w =>
    have hi : index ≠ n := by simpa [Event.resumes] using h
    simp [strands,hi]
  | call command w => rfl
  | restart options adapters w => rfl

/-- Others leave a call where it is. -/
theorem apply_other {c : Call} (he : e.inProcess) (hn : e.resumes n=false)
    (hc : sys.calls[n]?=some c) : (sys.apply e).calls[n]?=some c := by
  have ⟨hlt,_⟩ := List.getElem?_eq_some_iff.1 hc
  cases e with
  | restart options adapters w => exact he.elim
  | call command w =>
    by_cases hu : sys.up
    · simp only [apply,hu,if_true]
      rw [List.getElem?_append_left hlt]
      exact hc
    · simp only [apply,hu]
      exact hc
  | resume index w =>
    have hi : index ≠ n := by simpa [Event.resumes] using hn
    by_cases hu : sys.up
    · have set (call : Call) : (sys.calls.set index call)[n]?=some c := by
        rw [List.getElem?_set_ne hi]
        exact hc
      cases hget : sys.calls[index]? with
      | none =>
        simp only [apply,hu,hget,if_true]
        exact hc
      | some call =>
        simp only [apply,hu,hget,if_true]
        cases call with
        | phase run => exact set _
        | session run =>
          simp only [resume]
          rw [List.getElem?_append_left (by simpa using hlt)]
          exact set _
        | cancel session reason remaining =>
          cases remaining with
          | nil => exact set _
          | cons phase rest => exact set _
        | recovery session plan => exact set _
        | stopping => exact set _
        | ran | drove | created | recovered | ended => exact hc
    · simp only [apply,hu]
      exact hc

/-- A call that has returned has nothing to resume. -/
theorem resume_ran {result : Result PhaseRunReport} (hc : sys.calls[n]?=some (.ran result)) :
    sys.apply (.resume n w)=sys ∧ sys.strands n (.resume n w)=false := by
  refine ⟨?_,by simp [strands,hc]⟩
  by_cases hup : sys.up
  · simp only [apply,hup,hc,if_true]
    rfl
  · simp only [apply,hup]
    rfl

/-- A returned call strands nothing any more, and the phase stays as it left it. -/
theorem run_returned {result : Result PhaseRunReport} (hp : ∀ e ∈ events,e.inProcess)
    (hu : along (undisturbed n sid pid) sys events) (hc : sys.calls[n]?=some (.ran result)) :
    (sys.run events).rt.phase sid pid=sys.rt.phase sid pid ∧
      along (fun sys e => !sys.strands n e) sys events := by
  induction events generalizing sys with
  | nil => exact ⟨rfl,rfl⟩
  | cons e events ih =>
    obtain ⟨he,hrest⟩ := List.forall_mem_cons.1 hp
    rw [along,Bool.and_eq_true] at hu ⊢
    cases hr : e.resumes n with
    | true =>
      obtain ⟨w,rfl⟩ := Event.eq_resume hr
      obtain ⟨hsame,hstrands⟩ := resume_ran (w := w) hc
      obtain ⟨h₁,h₂⟩ := ih hrest hu.2 (by rw [hsame]; exact hc)
      refine ⟨?_,by rw [hstrands]; rfl,h₂⟩
      show ((sys.apply (.resume n w)).run events).rt.phase sid pid=_
      rw [hsame] at h₁ ⊢
      exact h₁
    | false =>
      have hphase := hu.1
      rw [undisturbed,hr,Bool.false_or,Bool.and_eq_true,decide_eq_true_eq] at hphase
      obtain ⟨h₁,h₂⟩ := ih hrest hu.2 (apply_other he hr hc)
      exact ⟨h₁.trans hphase.1,by rw [strands_other hr]; rfl,h₂⟩

/-- The next locked part of the call, or nothing where the process has ended. -/
theorem apply_resume {run : PhaseRun} (hu : sys.up) (hc : sys.calls[n]?=some (.phase run)) :
    (sys.apply (.resume n w)).rt=(run.step w (sys.rt.facing w)).2 ∧
      (sys.apply (.resume n w)).calls[n]?=some (run.step w (sys.rt.facing w)).1 := by
  have ⟨hlt,_⟩ := List.getElem?_eq_some_iff.1 hc
  simp only [apply,hu,hc,if_true]
  refine ⟨rfl,?_⟩
  exact List.getElem?_set_self hlt

/-- A call that has reserved its phase leaves it in flight just when one of its steps strands it. -/
theorem run_settles {run : PhaseRun} {result : Result PhaseRunReport}
    (hp : ∀ e ∈ events,e.inProcess)
    (hu : along (undisturbed n run.session run.phase) sys events)
    (hc : sys.calls[n]?=some (.phase run)) (ha : run.Attends sys.rt)
    (hr : (sys.run events).calls[n]?=some (.ran result)) :
    ∃ p,(sys.run events).rt.phase run.session run.phase=some p ∧
      p.state.inFlight=!along (fun sys e => !sys.strands n e) sys events := by
  induction events generalizing sys run with
  | nil =>
    cases hc.symm.trans hr
  | cons e events ih =>
    obtain ⟨he,hrest⟩ := List.forall_mem_cons.1 hp
    have hsplit := hu
    rw [along,Bool.and_eq_true] at hsplit
    obtain ⟨hhere,hthere⟩ := hsplit
    rw [undisturbed,Bool.and_eq_true,decide_eq_true_eq] at hhere
    rw [along]
    cases hresumes : e.resumes n with
    | false =>
      have hphase := hhere.1
      rw [hresumes,Bool.false_or,decide_eq_true_eq] at hphase
      have h := ih hrest hthere (apply_other he hresumes hc) (run.attends_of_phase ha hphase) hr
      rw [strands_other hresumes]
      exact h
    | true =>
      obtain ⟨w,rfl⟩ := Event.eq_resume hresumes
      by_cases hup : sys.up
      · obtain ⟨hrt,hcall⟩ := @apply_resume sys n w run hup hc
        have hstrands : sys.strands n (.resume n w)=run.strands w (sys.rt.facing w) := by
          simp only [strands,hc,hup,decide_true,Bool.true_and]
          rfl
        have hj := hhere.2
        rw [hrt] at hj
        rcases @PhaseRun.step_proceeds run w (sys.rt.facing w) ha hj with
          ⟨run',hrun,hs,hph,hattends,hn⟩ | ⟨returned,p,hran,hfound,hflight⟩
        · rw [hrun] at hcall
          rw [← hrt] at hattends
          rw [← hs,← hph] at hthere ⊢
          have h := ih hrest hthere hcall hattends hr
          rw [hstrands,hn]
          exact h
        · rw [hran] at hcall
          obtain ⟨hsame,hnone⟩ := run_returned hrest hthere hcall
          refine ⟨p,hsame.trans (by rw [hrt]; exact hfound),?_⟩
          rw [hstrands,hnone,Bool.and_true,Bool.not_not]
          exact hflight
      · have hsame : sys.apply (.resume n w)=sys := by
          simp only [apply,hup]
          rfl
        have hstrands : sys.strands n (.resume n w)=false := by simp [strands,hup]
        rw [hsame] at hthere
        have h := ih hrest hthere hc ha (by
          have hr : ((sys.apply (.resume n w)).run events).calls[n]?=_ := hr
          rwa [hsame] at hr)
        rw [hstrands,hsame]
        show ∃ p,((sys.apply (.resume n w)).run events).rt.phase _ _=some p ∧ _
        rw [hsame]
        exact h

/-- A `run_phase` or `retry_phase` that has reserved its phase and returned, undisturbed and with
a journal that takes everything, has settled the phase exactly when none of its steps stranded
it. -/
theorem settled_iff {run : PhaseRun} {r : Reservation} {result : Result PhaseRunReport}
    (hup : sys.up) (hc : sys.calls[n]?=some (.phase run)) (hpc : run.pc=.reserve)
    (hk : ∀ p,sys.rt.phase run.session run.phase=some p → p.id=run.phase)
    (hr : (Runtime.reserve w run.session run.phase run.isRetry (sys.rt.facing w)).1=.ok r)
    (hp : ∀ e ∈ events,e.inProcess)
    (hu : along (undisturbed n run.session run.phase) (sys.apply (.resume n w)) events)
    (hran : ((sys.apply (.resume n w)).run events).calls[n]?=some (.ran result)) :
    (∃ p,((sys.apply (.resume n w)).run events).rt.phase run.session run.phase=some p ∧
      p.state.inFlight=false) ↔
    along (fun sys e => !sys.strands n e) (sys.apply (.resume n w)) events := by
  have ⟨hrt,hcall⟩ := @apply_resume sys n w run hup hc
  cases hx : Runtime.reserve w run.session run.phase run.isRetry (sys.rt.facing w) with
  | mk reserved t =>
    rw [hx] at hr
    have hr : reserved=.ok r := hr
    subst hr
    have hstep : run.step w (sys.rt.facing w)=(run.goto (.prepare r),t) := by
      unfold PhaseRun.step
      rw [hpc]
      dsimp only
      rw [hx]
    rw [hstep] at hrt hcall
    have hkeyed : ∀ p,(sys.rt.facing w).phase run.session run.phase=some p → p.id=run.phase := hk
    have ⟨hs,hph,hunder⟩ := Runtime.reserve_underway hkeyed hx
    have hattends : { run with pc := .prepare r }.Attends (sys.apply (.resume n w)).rt := by
      rw [hrt]
      exact ⟨⟨hs,hph⟩,hunder⟩
    have ⟨p,hfound,hflight⟩ := @run_settles _ events n { run with pc := .prepare r } result hp hu
      hcall hattends hran
    constructor
    · rintro ⟨q,hq,hf⟩
      cases hfound.symm.trans hq
      rw [hflight] at hf
      simpa using hf
    · intro ha
      exact ⟨p,hfound,by rw [hflight,ha]; rfl⟩

end System

namespace Sample

/-- A `run_phase` before its reservation. -/
def entered : System := created.apply (.call (.runPhase ⟨1⟩ ⟨1⟩) world)

/-- The adapter fails to validate what the compiler left. -/
def unjudged : World :=
  { world with evidence := .error ⟨.integrityUnproven,ascii "validation context is incomplete"⟩ }

end Sample

namespace System

theorem settled_of_entered : ∃ p,((Sample.entered.apply (.resume 2 Sample.world)).run
    (List.replicate 8 (.resume 2 Sample.world))).rt.phase ⟨1⟩ ⟨1⟩=some p ∧
    p.state.inFlight=false := by
  have hcall : (Sample.entered.calls[2]?.bind Call.phaseRun)=
      some { session := ⟨1⟩,phase := ⟨1⟩ } := by decide +kernel
  have hphase : (Sample.entered.rt.phase ⟨1⟩ ⟨1⟩).map (·.id)=some ⟨1⟩ := by decide +kernel
  have hreserve : (Runtime.reserve Sample.world ⟨1⟩ ⟨1⟩ false
      (Sample.entered.rt.facing Sample.world)).1.toBool := by decide +kernel
  -- all three look at the same run
  have hrun : ((((Sample.entered.apply (.resume 2 Sample.world)).run
        (List.replicate 8 (.resume 2 Sample.world))).calls[2]?).bind Call.answer).isSome ∧
      along (undisturbed 2 ⟨1⟩ ⟨1⟩) (Sample.entered.apply (.resume 2 Sample.world))
        (List.replicate 8 (.resume 2 Sample.world)) ∧
      along (fun sys e => !sys.strands 2 e) (Sample.entered.apply (.resume 2 Sample.world))
        (List.replicate 8 (.resume 2 Sample.world)) := by decide +kernel
  obtain ⟨hran,hu,hs⟩ := hrun
  have ⟨r,hr⟩ := Base.exists_eq_ok hreserve
  have ⟨result,hresult⟩ := Option.isSome_iff_exists.1 hran
  have hkeyed : ∀ p,Sample.entered.rt.phase ⟨1⟩ ⟨1⟩=some p → p.id=⟨1⟩ := by
    intro p hp
    rw [hp] at hphase
    exact Option.some.inj hphase
  have hp : ∀ e ∈ List.replicate 8 (Event.resume 2 Sample.world),e.inProcess := by
    intro e he
    rw [(List.mem_replicate.1 he).2]
    trivial
  exact (@settled_iff Sample.entered _ 2 Sample.world { session := ⟨1⟩,phase := ⟨1⟩ } r result
    (by decide +kernel) (Call.of_phaseRun hcall) rfl hkeyed hr hp hu (Call.of_answer hresult)).2 hs

/-- The validation fails, the call returns the failure, and the phase is left VALIDATING. -/
theorem not_settled_of_unjudged :
    (Runtime.reserve Sample.unjudged ⟨1⟩ ⟨1⟩ false
      (Sample.entered.rt.facing Sample.unjudged)).1.toBool ∧
    ((((Sample.entered.apply (.resume 2 Sample.unjudged)).run
      (List.replicate 7 (.resume 2 Sample.unjudged))).calls[2]?).bind Call.answer).map
        (·.toBool)=some false ∧
    (((Sample.entered.apply (.resume 2 Sample.unjudged)).run
      (List.replicate 7 (.resume 2 Sample.unjudged))).rt.phase ⟨1⟩ ⟨1⟩).map
        (·.state)=some .validating ∧
    along (undisturbed 2 ⟨1⟩ ⟨1⟩) (Sample.entered.apply (.resume 2 Sample.unjudged))
      (List.replicate 7 (.resume 2 Sample.unjudged)) := by decide +kernel

end System

end CompilerFabric
