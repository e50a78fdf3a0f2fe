import CompilerFabric.Runtime.Steps

namespace CompilerFabric

open Base Base.Action

namespace Runtime

/-- Any state may follow. -/
def anyState (_ : UInt64) (_ _ : SessionState) : Prop := True

instance {i : UInt64} : IsPreorder SessionState (anyState i) where
  refl _ := trivial
  trans _ _ _ _ _ := trivial

/-- What most of the locked parts do: no session comes, no artifact is registered or made
authoritative, no lease is granted, and no phase is bound, produced or committed. -/
abbrev Idles : Runtime → Runtime → Prop := Evolves anyState PhaseRecord.Quiet

theorem Evolves.idles {σ : UInt64 → SessionState → SessionState → Prop} {rt t : Runtime}
    (h : Evolves σ PhaseRecord.Quiet rt t) : Idles rt t :=
  h.mono (fun _ _ _ _ => trivial) fun _ _ h => h

theorem facing_idles {rt t : Runtime} {w : World} (h : Idles (rt.facing w) t) : Idles rt t :=
  ⟨⟨h.policies,h.adapters,h.sources⟩,h.sessions,h.artifacts,h.registered,h.completions,h.failures,
    IsTrans.trans rt (rt.facing w) t (Mints.same rfl) h.mints,h.leases⟩

/-- The report `report_output` hands on. -/
def handedIn (invocation : Ref .invocation) (outputs : List OutputDescriptor)
    (process : ProcessOutcome) : ExecutionReport :=
  { executed := process.termination=.exited || process.termination=.crashed
    process := { process with invocation }
    outputs := outputs
    status := process.status.code
    detail := process.status.message }

/-- `report_output` is refused, or records for the phase as it stands. -/
theorem reportOutput_snd (w : World) (sid : CompilerSessionId) (pid : CompilerPhaseId)
    (generation : CompilerPhaseGeneration) (invocation : Ref .invocation)
    (outputs : List OutputDescriptor) (process : ProcessOutcome) (rt : Runtime) :
    (reportOutput w sid pid generation invocation outputs process rt).2=rt ∨
      ∃ s p,rt.find sid=some s ∧ s.findPhase pid=some p ∧ p.generation=generation ∧
        p.activeInvocation=invocation ∧
        (reportOutput w sid pid generation invocation outputs process rt).2=
          (recordExecution w (rebuiltReservation s p sid pid generation invocation)
            (handedIn invocation outputs process) rt).2 := by
  let ends (t : Runtime) : Prop := t=rt ∨ ∃ s p,rt.find sid=some s ∧ s.findPhase pid=some p ∧
    p.generation=generation ∧ p.activeInvocation=invocation ∧
    t=(recordExecution w (rebuiltReservation s p sid pid generation invocation)
      (handedIn invocation outputs process) rt).2
  have stay {α : Type} {r : Result α} {e : Status} {t : Runtime}
      (h : ofExcept r rt=(.error e,t)) : ends t := .inl (congrArg Prod.snd h).symm
  refine bind_state (Q := ends) (by rintro _ _ ⟨⟩) ?_
  rintro _ _ ⟨⟩
  refine bind_state (Q := ends) (fun _ _ => stay) fun s t hx => ?_
  obtain ⟨hs,ht⟩ := ofExcept_eq_ok.1 hx
  subst ht
  refine bind_state (Q := ends) (fun _ _ => stay) fun p t hx => ?_
  obtain ⟨hp,ht⟩ := ofExcept_eq_ok.1 hx
  subst ht
  refine bind_state (Q := ends) (fun _ _ => stay) fun _ t hx => ?_
  obtain ⟨hg,ht⟩ := ofExcept_eq_ok.1 hx
  subst ht
  refine bind_state (Q := ends) (fun _ _ => stay) fun _ t hx => ?_
  obtain ⟨hi,ht⟩ := ofExcept_eq_ok.1 hx
  subst ht
  have recorded {u : Runtime} (hu : u=(recordExecution w
      (rebuiltReservation s p sid pid generation invocation)
      (handedIn invocation outputs process) rt).2) : ends u :=
    .inr ⟨s,p,(requireSession_ok sid).1 hs,(requirePhase_ok pid).1 hp,ensure_ok.1 hg,ensure_ok.1 hi,hu⟩
  refine bind_state (Q := ends) ?_ ?_
  · intro e u hu
    exact recorded (congrArg Prod.snd hu).symm
  · intro _ u hu
    exact recorded (congrArg Prod.snd hu).symm

end Runtime

namespace System

variable {sys : System} {e : Event} {w : World}

/-- The event records a completion. -/
inductive Records (sys : System) : Event → World → Reservation → ExecutionReport → Prop
  | run {e : Event} {w : World} {run : PhaseRun} {r : Reservation} {report : ExecutionReport}
      (h : sys.Runs e w run) (hpc : run.pc=.record r report) :
      Records sys e w r ((sys.rt.facing w).withDiagnostics w r report)
  | reported {w : World} {sid : CompilerSessionId} {pid : CompilerPhaseId} {s : CompilerSession}
      {p : PhaseRecord} (outputs : List OutputDescriptor) (process : ProcessOutcome) (hu : sys.up)
      (hs : sys.rt.find sid=some s) (hp : s.findPhase pid=some p) :
      Records sys (.call (.reportOutput sid pid p.generation p.activeInvocation outputs process) w)
        w (Runtime.rebuiltReservation s p sid pid p.generation p.activeInvocation)
        (Runtime.handedIn p.activeInvocation outputs process)

/-- What an event of the process does to the runtime. -/
inductive Turn (sys : System) (e : Event) : Runtime → Prop
  | idle {t : Runtime} (h : sys.rt.Idles t) : Turn sys e t
  | reserve {w : World} {run : PhaseRun} (h : sys.Runs e w run) (hpc : run.pc=.reserve) :
      Turn sys e (Runtime.reserve w run.session run.phase run.isRetry (sys.rt.facing w)).2
  | record {w : World} {r : Reservation} {report : ExecutionReport}
      (h : sys.Records e w r report) :
      Turn sys e (Runtime.recordExecution w r report (sys.rt.facing w)).2
  | commit {w : World} {run : PhaseRun} {r : Reservation} {report : ExecutionReport}
      (h : sys.Runs e w run) (hpc : run.pc=.commit r report) :
      Turn sys e (Runtime.commitReserved w r report (sys.rt.facing w)).2
  | create {w : World} {request : CompileRequest} (hu : sys.up)
      (he : e=.call (.createSession request) w) :
      Turn sys e (Runtime.createSession w request (sys.rt.facing w)).2
  | adopt {w : World} {session : CompilerSession} (hu : sys.up)
      (he : e=.call (.adoptSession session) w) :
      Turn sys e (Runtime.adoptSession w session (sys.rt.facing w)).2

theorem Turn.facing {t : Runtime} (h : (sys.rt.facing w).Idles t) : sys.Turn e t :=
  .idle (Runtime.facing_idles h)

/-- A locked part that idles. -/
theorem Turn.within {σ : UInt64 → SessionState → SessionState → Prop} {α : Type}
    {x : Op α} (h : Within (Runtime.Evolves σ PhaseRecord.Quiet) x) :
    sys.Turn e (x (sys.rt.facing w)).2 :=
  .facing (h _).idles

theorem Turn.stay : sys.Turn e (sys.rt.facing w) := .facing (Std.Refl.refl (sys.rt.facing w))

theorem Runs.turn {run : PhaseRun} (h : sys.Runs e w run) : sys.Turn e (sys.apply e).rt := by
  cases hpc : run.pc with
  | reserve =>
    rw [h.reserve hpc]
    exact .reserve h hpc
  | commit r report =>
    rw [h.commit hpc]
    exact .commit h hpc
  | prepare r =>
    have ht : sys.Turn e (Runtime.prepare w r (sys.rt.facing w)).2 :=
      .within (Runtime.prepare_within w r (σ := fun _ => Eq))
    rw [h.rt,PhaseRun.step,hpc]
    dsimp only
    split
    · next he => rwa [he] at ht
    · next he => rwa [he] at ht
  | execute r =>
    rw [h.rt,PhaseRun.step,hpc]
    dsimp only
    split
    · exact .stay
    · exact .within (Runtime.noteProcess_within r _ (σ := fun _ => Eq))
  | record r report =>
    rw [h.rt,PhaseRun.step,hpc]
    dsimp only
    rw [PhaseRun.after_snd]
    exact .record (.run h hpc)
  | inspect r report =>
    rw [h.rt,PhaseRun.step,hpc]
    dsimp only
    split
    · split <;> exact .stay
    · exact .stay
  | reproduce r report =>
    rw [h.rt,PhaseRun.step,hpc]
    dsimp only
    split <;> exact .stay
  | verify r report =>
    rw [h.rt,PhaseRun.step,hpc]
    dsimp only
    split <;> exact .stay
  | refuse r status =>
    rw [h.rt,PhaseRun.step,hpc]
    dsimp only
    rw [PhaseRun.after_snd]
    exact .within (Runtime.refuseDivergent_within w r status (σ := fun _ => Eq))
  | validate r report =>
    rw [h.rt,PhaseRun.step,hpc]
    dsimp only
    split <;> exact .stay
  | judge r report =>
    rw [h.rt,PhaseRun.step,hpc]
    dsimp only
    split
    · exact .stay
    · rw [PhaseRun.after_snd]
      exact .within (Runtime.applyEvidence_within w r _ (σ := fun _ => Eq))

theorem session_turn (run : SessionRun) :
    sys.Turn e (run.step w sys.calls (sys.rt.facing w)).2.2 := by
  unfold SessionRun.step
  cases run.pc with
  | limit =>
    dsimp only
    split <;> exact .stay
  | ceiling =>
    dsimp only
    split <;> exact .stay
  | round =>
    dsimp only
    split
    · exact .within (Runtime.failSession_within w run.session _)
    · have ht : sys.Turn e (Runtime.beginRound w run.session (sys.rt.facing w)).2 :=
        .within (Runtime.beginRound_within w run.session)
      split
      · next he => rwa [he] at ht
      · next he => rwa [he] at ht
      · next he => rwa [he] at ht
      · next he => rwa [he] at ht
  | waiting children =>
    dsimp only
    split
    · exact .stay
    · split
      · exact .stay
      · split
        · exact .stay
        · exact .within (Runtime.failIfActive_within w run.session _)
  | finish =>
    dsimp only
    split <;> exact .stay

theorem start_turn (hu : sys.up) (c : Command) (w : World) :
    sys.Turn (.call c w) (c.start w (sys.rt.facing w)).2 := by
  cases c with
  | createSession request => exact .create hu rfl
  | adoptSession session => exact .adopt hu rfl
  | reportOutput session phase generation invocation outputs process =>
    rcases Runtime.reportOutput_snd w session phase generation invocation outputs process
      (sys.rt.facing w) with h | ⟨s,p,hs,hp,rfl,rfl,h⟩
    · show sys.Turn _ (Runtime.reportOutput w session phase generation invocation outputs process
        (sys.rt.facing w)).2
      rw [h]
      exact .stay
    · show sys.Turn _ (Runtime.reportOutput w session phase _ _ outputs process (sys.rt.facing w)).2
      rw [h]
      exact .record (.reported outputs process hu hs hp)
  | retryPhase session phase =>
    have ht : sys.Turn (.call (.retryPhase session phase) w)
        (Runtime.beginRetry session phase (sys.rt.facing w)).2 :=
      .within (Runtime.beginRetry_within session phase (σ := fun _ => Eq))
    simp only [Command.start]
    split
    · next he => rwa [he] at ht
    · next he => rwa [he] at ht
    · next he => rwa [he] at ht
  | cancelPhase session phase reason =>
    exact .within (Runtime.cancelPhase_within w session phase reason (σ := fun _ => Eq))
  | cancelSession session reason =>
    simp only [Command.start]
    split <;> exact .stay
  | retireSession session reason => exact .within (Runtime.retireSession_within w session reason)
  | commitPhase session phase generation invocation =>
    simp only [Command.start]
    split <;> exact .stay
  | failPhase session phase generation failure status detail =>
    exact .within (Runtime.failPhase_within w session phase generation failure status detail
      (σ := fun _ => Eq))
  | applyRecovery session =>
    have ht : sys.Turn (.call (.applyRecovery session) w)
        (Runtime.beginRecovery session (sys.rt.facing w)).2 :=
      .within (Runtime.beginRecovery_within session (σ := fun _ => Eq))
    simp only [Command.start]
    split
    · next he => rwa [he] at ht
    · next he => rwa [he] at ht
  | shutdown =>
    have ht : sys.Turn (.call .shutdown w) (Runtime.beginShutdown w (sys.rt.facing w)).2 :=
      .within (Runtime.beginShutdown_within w)
    simp only [Command.start]
    split
    · next he => rwa [he] at ht
    · next he => rwa [he] at ht
    · next he => rwa [he] at ht
  | reopen => exact .facing (w := w) (.aside rfl rfl rfl rfl rfl)
  | addAdapter adapter =>
    exact .facing (.write rfl rfl rfl rfl (Nat.le_refl _) (.same rfl)
      ⟨Std.Refl.refl _,List.prefix_append _ _,Std.Refl.refl _⟩ (Std.Refl.refl _))
  | discoverToolchain family =>
    exact .within (Runtime.discoverToolchain_within w family (σ := fun _ => Eq))
  | refreshToolchain id => exact .within (Runtime.refreshToolchain_within w id (σ := fun _ => Eq))
  | invalidateToolchain id reason => exact .within (Runtime.moveToolchain_within _ (σ := fun _ => Eq))
  | applyToolchainObservation observed =>
    exact .within (Runtime.moveToolchain_within _ (σ := fun _ => Eq))
  | internTarget spec => exact .within (Runtime.onTargets_within _ (σ := fun _ => Eq))
  | reviseTarget id spec => exact .within (Runtime.onTargets_within _ (σ := fun _ => Eq))
  | internEnvironment spec => exact .within (Runtime.onEnvironments_within _ (σ := fun _ => Eq))
  | reviseEnvironment id spec => exact .within (Runtime.onEnvironments_within _ (σ := fun _ => Eq))
  | internPolicy spec =>
    exact .within (Runtime.onPolicies_within (fun _ _ _ => SpecRegistry.internWith_advances)
      (σ := fun _ => Eq))
  | revisePolicy id spec =>
    exact .within (Runtime.onPolicies_within (fun _ _ _ => SpecRegistry.reviseWith_advances)
      (σ := fun _ => Eq))
  | addSource => exact .within (Runtime.addSource_within _ (σ := fun _ => Eq))
  | revokeLease id reason => exact .within (Runtime.revokeLease_within id reason (σ := fun _ => Eq))
  | revokePhaseLeases phase reason =>
    exact .facing (.write rfl rfl rfl rfl (Nat.le_refl _) (.same rfl) (.same rfl rfl rfl)
      ((sys.rt.facing w).leases.revokePhase_shrinks phase reason))
  | _ => exact .stay

/-- Every event of a process is one of these turns. -/
theorem apply_turn (he : e.inProcess) : sys.Turn e (sys.apply e).rt := by
  have rest : sys.Turn e sys.rt := .idle (Std.Refl.refl sys.rt)
  cases e with
  | restart options adapters w => exact he.elim
  | call command w =>
    simp only [apply]
    split
    · next hu => exact start_turn hu command w
    · exact rest
  | resume index w =>
    by_cases hu : sys.up
    · cases hc : sys.calls[index]? with
      | none =>
        simp only [apply,hu,if_true,hc]
        exact rest
      | some call =>
        cases call with
        | phase run => exact Runs.turn ⟨hu,index,rfl,hc⟩
        | session run =>
          simp only [apply,hu,if_true,hc]
          exact session_turn run
        | cancel session reason remaining =>
          simp only [apply,hu,if_true,hc]
          cases remaining with
          | nil => exact .within (Runtime.endCancelSession_within w session reason)
          | cons phase rest =>
            exact .within (Runtime.cancelPhase_within w session phase reason (σ := fun _ => Eq))
        | recovery session plan =>
          simp only [apply,hu,if_true,hc]
          exact .within (Runtime.endRecovery_within w session plan)
        | stopping =>
          simp only [apply,hu,if_true,hc]
          exact .within (Runtime.endShutdown_within w)
        | ran | drove | created | recovered | ended =>
          simp only [apply,hu,if_true,hc]
          exact rest
    · simp only [apply,hu]
      exact rest

end System

end CompilerFabric
