import CompilerFabric.Runtime.Calls

namespace CompilerFabric

open Base Base.Action

/-! What a run may still do once its phase has been reserved again. -/

/-- The reservation a run works under, once it has one. -/
def PhasePc.reservation : PhasePc → Option Reservation
  | .reserve => none
  | .prepare r | .execute r | .record r _ | .inspect r _ | .reproduce r _ | .verify r _
  | .refuse r _ | .validate r _ | .judge r _ | .commit r _ => some r

/-- The locked parts that write without a look at the generation: a launched child is noted on the
phase, a divergent pair is refused, evidence is applied. -/
def PhaseRun.unguarded (run : PhaseRun) (w : World) : Bool :=
  match run.pc with
  | .execute _ => match w.execution with
    | .ok report => report.process.id.present
    | .error _ => false
  | .refuse .. => true
  | .judge .. => w.evidence.toBool
  | _ => false

namespace Runtime

variable {w : World} {rt t : Runtime} {r : Reservation}

/-- The generation of the phase has gone past the reservation. -/
def superseded (rt : Runtime) (r : Reservation) : Bool :=
  (rt.phase r.session r.phase).any fun p => r.phaseGeneration.value<p.generation.value

/-- The phase is as it was, the candidate of its session, and the standing of every artifact that
the reserved generation has not produced. -/
structure Spares (r : Reservation) (rt t : Runtime) : Prop where
  phase : t.phase r.session r.phase=rt.phase r.session r.phase
  candidate : (t.find r.session).map (fun s => (s.candidatePresent,s.candidate))=
    (rt.find r.session).map fun s => (s.candidatePresent,s.candidate)
  artifacts : ∀ id a,rt.artifacts.find id=some a → a.producerPhase ≠ ⟨r.phase,r.phaseGeneration⟩ →
    ∃ a',t.artifacts.find id=some a' ∧ a'.state=a.state ∧ a'.authority=a.authority

theorem Spares.of_facing (h : t=rt.facing w) : Spares r rt t := by
  subst h
  exact ⟨rfl,rfl,fun _ a ha _ => ⟨a,ha,rfl,rfl⟩⟩

theorem superseded_phase (h : rt.superseded r) : ∃ s p,rt.find r.session=some s ∧
    s.findPhase r.phase=some p ∧ p.generation ≠ r.phaseGeneration := by
  obtain ⟨p,hp,hlt⟩ := (Option.any_eq_true _ _).1 h
  obtain ⟨s,hs,hp⟩ := Option.bind_eq_some_iff.1 hp
  refine ⟨s,p,hs,hp,fun he => ?_⟩
  rw [he] at hlt
  exact absurd (of_decide_eq_true hlt) (UInt64.lt_irrefl _)

theorem prepare_superseded (h : rt.superseded r) : (prepare w r rt).2=rt := by
  obtain ⟨s,p,hs,hp,hne⟩ := superseded_phase h
  simp [prepare,bind_apply,requireSession,hs,CompilerSession.requirePhase,hp,check,ensure,hne]

theorem recordExecution_superseded (h : rt.superseded r) (report : ExecutionReport) :
    (recordExecution w r report rt).2=rt := by
  obtain ⟨s,p,hs,hp,hne⟩ := superseded_phase h
  have hrefused : rt.recordable r=.error (.of .stalePhaseGeneration
      "phase generation moved while the execution was in flight") := by
    simp [recordable,bind,Except.bind,requireSession,hs,CompilerSession.requirePhase,hp,ensure,hne]
  simp [recordExecution,bind_apply,hrefused]

theorem commitReserved_superseded (h : rt.superseded r) (report : ExecutionReport) :
    (commitReserved w r report rt).2=rt := by
  obtain ⟨s,p,hs,hp,hne⟩ := superseded_phase h
  have hrefused : rt.committable r=.error (.of .stalePhaseGeneration
      "phase generation moved before commit") := by
    simp [committable,bind,Except.bind,requireSession,hs,CompilerSession.requirePhase,hp,ensure,hne]
  simp [commitReserved,bind_apply,hrefused]

end Runtime

namespace PhaseRun

variable {w : World} {rt : Runtime} {run : PhaseRun} {r : Reservation}

/-- Where a run looks at the generation again it finds that it has been superseded, and leaves
everything as it is. -/
theorem step_superseded (hr : run.pc.reservation=some r) (h : rt.superseded r)
    (hg : run.unguarded w=false) : (run.step w rt).2=rt := by
  unfold step
  unfold unguarded at hg
  cases hpc : run.pc with
  | reserve =>
    rw [hpc] at hr
    cases hr
  | prepare r =>
    rw [hpc] at hr
    cases hr
    have hp := Runtime.prepare_superseded (w := w) h
    dsimp only
    split
    · next hx => rwa [hx] at hp
    · next hx => rwa [hx] at hp
  | execute r =>
    rw [hpc] at hg
    dsimp only at hg ⊢
    split
    · rfl
    · next report hx =>
      rw [hx] at hg
      have hp : report.process.id.present=false := hg
      simp [Runtime.noteProcess,hp]
  | record r report =>
    rw [hpc] at hr
    cases hr
    dsimp only
    rw [after_snd]
    exact Runtime.recordExecution_superseded h _
  | inspect r report =>
    dsimp only
    split
    · split <;> rfl
    · rfl
  | reproduce r report =>
    dsimp only
    split <;> rfl
  | verify r report =>
    dsimp only
    split <;> rfl
  | refuse r e =>
    rw [hpc] at hg
    cases hg
  | validate r report =>
    dsimp only
    split <;> rfl
  | judge r report =>
    rw [hpc] at hg
    dsimp only at hg ⊢
    split
    · rfl
    · next evidence hx =>
      rw [hx] at hg
      cases hg
  | commit r report =>
    rw [hpc] at hr
    cases hr
    dsimp only
    rw [after_snd]
    exact Runtime.commitReserved_superseded h _

end PhaseRun

namespace System

variable {sys : System} {events : List Event}

/-- The reservation of the call, where it is a superseded run. -/
def outlived (sys : System) (index : Nat) : Option Reservation :=
  match sys.calls[index]? with
  | some (.phase run) => run.pc.reservation.filter sys.rt.superseded
  | _ => none

theorem outlived_run {index : Nat} {r : Reservation} (h : sys.outlived index=some r) :
    ∃ run,sys.calls[index]?=some (.phase run) ∧ run.pc.reservation=some r ∧ sys.rt.superseded r := by
  unfold outlived at h
  split at h
  · next run hc =>
    obtain ⟨hr,hs⟩ := Option.filter_eq_some_iff.1 h
    exact ⟨run,hc,hr,hs⟩
  · cases h

/-- A superseded run is about to write without a look at the generation. -/
def strays (sys : System) : Event → Bool
  | .resume index w => match sys.calls[index]? with
    | some (.phase run) => run.unguarded w && run.pc.reservation.any sys.rt.superseded
    | _ => false
  | _ => false

/-- Whatever the callers interleave, the steps of a superseded run change nothing of what came
after it. -/
def Inert (sys : System) (events : List Event) : Prop := ∀ n e w run r,events[n]?=some e →
  (sys.run (events.take n)).Runs e w run → run.pc.reservation=some r →
    (sys.run (events.take n)).rt.superseded r →
      Runtime.Spares r (sys.run (events.take n)).rt (sys.run (events.take (n+1))).rt

theorem apply_spares {e : Event} {w : World} {run : PhaseRun} {r : Reservation} (h : sys.Runs e w run)
    (hr : run.pc.reservation=some r) (hs : sys.rt.superseded r) (hg : sys.strays e=false) :
    Runtime.Spares r sys.rt (sys.apply e).rt := by
  have hrt := h.rt
  obtain ⟨_,index,he,hc⟩ := h
  have hguarded : run.unguarded w=false := by
    subst he
    simpa [strays,hc,hr,hs] using hg
  exact .of_facing (hrt.trans (PhaseRun.step_superseded hr hs hguarded))

/-- A superseded run is inert in every run of the process in which no such run stands where the
generation is not compared again. -/
theorem superseded_inert (sys : System) (events : List Event)
    (h : along (fun sys e => !sys.strays e) sys events) : sys.Inert events := by
  intro n e w run r he hruns hr hs
  have hg := along_at h he
  rw [run_take_succ,he]
  exact apply_spares hruns hr hs (by simpa using hg)

end System

namespace Sample

/-- The phase is failed and retried while a run that has taken `steps` stands still. -/
def reservedAgain (steps : Nat) : List Event :=
  .call (.runPhase ⟨1⟩ ⟨1⟩) world::List.replicate steps (.resume 2 world)++
    [.call (.failPhase ⟨1⟩ ⟨1⟩ ⟨2⟩ .processCrash .processCrashed []) world,
      .call (.retryPhase ⟨1⟩ ⟨1⟩) world,.resume 4 world]

/-- The late evidence of a run comes when the retry has registered its outputs. -/
def judgedLate : List Event :=
  reservedAgain 7++List.replicate 3 (.resume 4 world)++[.resume 2 world]

end Sample

namespace System

/-- The superseded run goes on and is refused. -/
theorem superseded_inert_of_refused :
    Sample.created.Inert (Sample.reservedAgain 1++List.replicate 2 (.resume 2 Sample.world)) :=
  superseded_inert _ _ (by decide +kernel)

/-- The evidence of the first run makes the outputs of the second one COMMIT_READY. -/
theorem not_inert_of_late_evidence : ¬Sample.created.Inert Sample.judgedLate := by
  intro h
  have hlate : (Sample.created.run (Sample.judgedLate.take 14)).up ∧
      (((Sample.created.run (Sample.judgedLate.take 14)).outlived 2).any fun r =>
        decide ((Sample.created.run (Sample.judgedLate.take 15)).rt.phase r.session r.phase ≠
          (Sample.created.run (Sample.judgedLate.take 14)).rt.phase r.session r.phase))=true := by
    decide +kernel
  obtain ⟨r,hr,hmoved⟩ := (Option.any_eq_true _ _).1 hlate.2
  obtain ⟨run,hc,hr,hs⟩ := outlived_run hr
  have hspared := h 14 (.resume 2 Sample.world) Sample.world run r rfl ⟨hlate.1,2,rfl,hc⟩ hr hs
  exact of_decide_eq_true hmoved hspared.phase

end System

end CompilerFabric
