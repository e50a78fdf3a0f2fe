import CompilerFabric.Runtime.Moves

namespace CompilerFabric

open Base Base.Action

/-- The event belongs to the process at hand. -/
def Event.inProcess : Event → Prop
  | .restart .. => False
  | _ => True

/-- Any session may go along `X`. -/
def settles (X : SessionState → SessionState → Prop) (_ : UInt64) (a b : SessionState) : Prop :=
  a=b ∨ X a b

instance {X : SessionState → SessionState → Prop} [IsTrans _ X] {i : UInt64} :
    IsPreorder SessionState (settles X i) where
  refl _ := .inl rfl
  trans := by
    intro a b c h h'
    rcases h with rfl | h
    · exact h'
    · rcases h' with rfl | h'
      · exact .inr h
      · exact .inr (IsTrans.trans _ _ _ h h')

namespace PhaseRun

/-- Only reservation and commit write what the phase is bound to and committed with. -/
def phases (run : PhaseRun) : PhaseRecord → PhaseRecord → Prop :=
  match run.pc with
  | .reserve => PhaseRecord.Opens
  | .commit .. => PhaseRecord.Stays
  | _ => PhaseRecord.Moves

instance (run : PhaseRun) : IsPreorder PhaseRecord run.phases := by
  unfold phases
  split <;> infer_instance

end PhaseRun

/-- What the next locked part of a `run_session` may do to the state of its session. -/
def SessionRun.moves (run : SessionRun) : UInt64 → SessionState → SessionState → Prop :=
  match run.pc with
  | .round =>
      if run.iterationCeiling<run.iterations+1 then changes run.session.value (into [.failed])
      else changes run.session.value (into [.active,.failed])
  | .waiting _ => changes run.session.value (leaves [.active] .failed)
  | _ => fun _ => Eq

instance (run : SessionRun) (i : UInt64) : IsPreorder SessionState (run.moves i) := by
  obtain ⟨who,limit,ceiling,iterations,outcome,pc⟩ := run
  simp only [SessionRun.moves]
  split
  · split <;> infer_instance
  · infer_instance
  · infer_instance

namespace Call

/-- What the next locked part of a call may do to the state of a session. -/
def moves : Call → UInt64 → SessionState → SessionState → Prop
  | .phase _ => settles Runtime.committing
  | .session run => run.moves
  | .cancel who _ [] => changes who.value (into [.cancelled])
  | .recovery who plan => changes who.value (Runtime.recoveryMoves plan.requiresOperator)
  | .stopping => Runtime.shutdownMoves
  | _ => fun _ => Eq

def phases : Call → PhaseRecord → PhaseRecord → Prop
  | .phase run => run.phases
  | _ => PhaseRecord.Moves

instance (call : Call) (i : UInt64) : IsPreorder SessionState (call.moves i) := by
  unfold moves
  split <;> infer_instance

instance (call : Call) : IsPreorder PhaseRecord call.phases := by
  unfold phases
  split <;> infer_instance

end Call

namespace Command

def moves : Command → UInt64 → SessionState → SessionState → Prop
  | .retireSession session _ => changes session.value (into [.retired])
  | _ => fun _ => Eq

instance (c : Command) (i : UInt64) : IsPreorder SessionState (c.moves i) := by
  unfold moves
  split <;> infer_instance

end Command

namespace Runtime

theorem Evolves.moves {σ : UInt64 → SessionState → SessionState → Prop} {rt rt' : Runtime}
    (h : Evolves σ PhaseRecord.Quiet rt rt') : Keeps σ PhaseRecord.Moves rt rt' :=
  (h.mono (fun _ _ _ h => h) fun _ _ h => h.toMoves).keeps

theorem facing_keeps {σ : UInt64 → SessionState → SessionState → Prop}
    {P : PhaseRecord → PhaseRecord → Prop} {rt rt' : Runtime} {w : World}
    (h : Keeps σ P (rt.facing w) rt') : Keeps σ P rt rt' :=
  ⟨⟨h.failures,IsTrans.trans rt (rt.facing w) rt' (Mints.same rfl) h.mints⟩,
    IsTrans.trans rt (rt.facing w) rt' (.same rfl rfl rfl) h.toRetains,h.sessions⟩

end Runtime

namespace PhaseRun

variable (w : World) (run : PhaseRun) (rt : Runtime)

theorem after_snd {α : Type} (x : Result α × Runtime) (next : α → Runtime → Call) :
    (after x next).2=x.2 := by
  unfold after
  split <;> rfl

theorem step_keeps : Runtime.Keeps (settles Runtime.committing) run.phases rt
    (run.step w rt).2 := by
  have still {P : PhaseRecord → PhaseRecord → Prop} [IsPreorder _ P] {rt' : Runtime}
      (h : Runtime.Keeps (fun _ => Eq) P rt rt') :
      Runtime.Keeps (settles Runtime.committing) P rt rt' :=
    h.mono (fun _ _ _ h => .inl h) fun _ _ h => h
  unfold step phases
  cases run.pc with
  | reserve =>
    have h := still (Runtime.reserve_keeps w run.session run.phase run.isRetry rt)
    dsimp only
    split
    · next he => rwa [he] at h
    · next he => rwa [he] at h
  | prepare r =>
    have h := still (Runtime.prepare_within w r rt).moves
    dsimp only
    split
    · next he => rwa [he] at h
    · next he => rwa [he] at h
  | execute r =>
    dsimp only
    split
    · exact still (Std.Refl.refl rt)
    · exact still (Runtime.noteProcess_within r _ rt).moves
  | record r report =>
    dsimp only
    rw [after_snd]
    exact still (Runtime.recordExecution_keeps w r _ rt)
  | inspect r report =>
    dsimp only
    split
    · split
      · exact still (Std.Refl.refl rt)
      · exact still (Std.Refl.refl rt)
    · exact still (Std.Refl.refl rt)
  | reproduce r report =>
    dsimp only
    split
    · exact still (Std.Refl.refl rt)
    · exact still (Std.Refl.refl rt)
  | verify r report =>
    dsimp only
    split
    · exact still (Std.Refl.refl rt)
    · exact still (Std.Refl.refl rt)
  | refuse r status =>
    dsimp only
    rw [after_snd]
    exact still (Runtime.refuseDivergent_within w r status rt).moves
  | validate r report =>
    dsimp only
    split
    · exact still (Std.Refl.refl rt)
    · exact still (Std.Refl.refl rt)
  | judge r report =>
    dsimp only
    split
    · exact still (Std.Refl.refl rt)
    · rw [after_snd]
      exact still (Runtime.applyEvidence_within w r _ rt).moves
  | commit r report =>
    dsimp only
    rw [after_snd]
    refine (Runtime.commitReserved_keeps w r report rt).mono ?_ fun _ _ h => h
    intro i a b h
    rcases h with h | ⟨_,h⟩
    · exact .inl h
    · exact .inr h

end PhaseRun

namespace SessionRun

variable (w : World) (run : SessionRun) (calls : List Call) (rt : Runtime)

theorem step_keeps : Runtime.Keeps run.moves PhaseRecord.Moves rt (run.step w calls rt).2.2 := by
  unfold step moves
  cases run.pc with
  | limit =>
    dsimp only
    split <;> exact Std.Refl.refl rt
  | ceiling =>
    dsimp only
    split <;> exact Std.Refl.refl rt
  | round =>
    dsimp only
    split
    · exact (Runtime.failSession_within w run.session _ rt).moves
    · have h := (Runtime.beginRound_within w run.session rt).moves
      split
      · next he => rwa [he] at h
      · next he => rwa [he] at h
      · next he => rwa [he] at h
      · next he => rwa [he] at h
  | waiting children =>
    dsimp only
    split
    · exact Std.Refl.refl rt
    · split
      · exact Std.Refl.refl rt
      · split
        · exact Std.Refl.refl rt
        · exact (Runtime.failIfActive_within w run.session _ rt).moves
  | finish =>
    dsimp only
    split <;> exact Std.Refl.refl rt

end SessionRun

namespace Command

variable (w : World) (rt : Runtime) (c : Command)

theorem start_keeps : Runtime.Keeps c.moves PhaseRecord.Moves rt (c.start w rt).2 := by
  cases c with
  | createSession request => exact Runtime.createSession_keeps w request rt
  | adoptSession session =>
    exact (Runtime.adoptSession_keeps w session rt).mono (fun _ _ _ h => h) fun _ _ h => h.toMoves
  | runPhase => exact Std.Refl.refl rt
  | retryPhase session phase =>
    have h := (Runtime.beginRetry_within (σ := fun _ => Eq) session phase rt).moves
    simp only [start]
    split
    · next he => rwa [he] at h
    · next he => rwa [he] at h
    · next he => rwa [he] at h
  | runSession => exact Std.Refl.refl rt
  | cancelPhase session phase reason =>
    exact (Runtime.cancelPhase_within w session phase reason rt).moves
  | cancelSession session reason =>
    simp only [start]
    split <;> exact Std.Refl.refl rt
  | retireSession session reason => exact (Runtime.retireSession_within w session reason rt).moves
  | reportOutput session phase generation invocation outputs process =>
    exact Runtime.reportOutput_keeps w session phase generation invocation outputs process rt
  | commitPhase session phase generation invocation =>
    simp only [start]
    split <;> exact Std.Refl.refl rt
  | failPhase session phase generation failure status detail =>
    exact (Runtime.failPhase_within w session phase generation failure status detail rt).moves
  | applyRecovery session =>
    have h := (Runtime.beginRecovery_within (σ := fun _ => Eq) session rt).moves
    simp only [start]
    split
    · next he => rwa [he] at h
    · next he => rwa [he] at h
  | shutdown =>
    have h := (Runtime.beginShutdown_within w rt).moves
    simp only [start]
    split
    · next he => rwa [he] at h
    · next he => rwa [he] at h
    · next he => rwa [he] at h
  | reopen => exact Runtime.Aside.keeps (.note rfl rfl)
  | addAdapter adapter =>
    exact Runtime.Aside.keeps (.write rfl (Nat.le_refl _) (.same rfl)
      ⟨Std.Refl.refl _,List.prefix_append _ _,Std.Refl.refl _⟩ (Std.Refl.refl _))
  | discoverToolchain family => exact (Runtime.discoverToolchain_within w family rt).moves
  | refreshToolchain id => exact (Runtime.refreshToolchain_within w id rt).moves
  | invalidateToolchain id reason => exact (Runtime.moveToolchain_within _ rt).moves
  | applyToolchainObservation observed => exact (Runtime.moveToolchain_within _ rt).moves
  | internTarget spec => exact (Runtime.onTargets_within _ rt).keeps
  | reviseTarget id spec => exact (Runtime.onTargets_within _ rt).keeps
  | internEnvironment spec => exact (Runtime.onEnvironments_within _ rt).keeps
  | reviseEnvironment id spec => exact (Runtime.onEnvironments_within _ rt).keeps
  | internPolicy spec =>
    exact (Runtime.onPolicies_within (fun _ _ _ => SpecRegistry.internWith_advances) rt).keeps
  | revisePolicy id spec =>
    exact (Runtime.onPolicies_within (fun _ _ _ => SpecRegistry.reviseWith_advances) rt).keeps
  | addSource => exact (Runtime.addSource_within _ rt).keeps
  | revokeLease id reason => exact (Runtime.revokeLease_within id reason rt).keeps
  | revokePhaseLeases phase reason =>
    exact Runtime.Aside.keeps (.write rfl (Nat.le_refl _) (.same rfl) (.same rfl rfl rfl)
      (rt.leases.revokePhase_shrinks phase reason))

end Command

namespace System

variable (sys : System)

/-- The phase as it stands. -/
def phase (sys : System) (sid : CompilerSessionId) (pid : CompilerPhaseId) : Option PhaseRecord :=
  sys.rt.phase sid pid

/-- Every event of a run in one process, taken from the state before it. -/
theorem run_take_succ (sys : System) (events : List Event) (n : Nat) :
    sys.run (events.take (n+1))=match events[n]? with
      | some e => (sys.run (events.take n)).apply e
      | none => sys.run (events.take n) := by
  rw [List.take_add_one,run,List.foldl_append]
  cases events[n]? <;> rfl

/-- What an event other than a restart may do to the state of a session. -/
def moves (sys : System) : Event → UInt64 → SessionState → SessionState → Prop
  | .call command _ => command.moves
  | .resume index _ => (sys.calls[index]?.map Call.moves).getD fun _ => Eq
  | .restart .. => fun _ _ _ => True

def phases (sys : System) : Event → PhaseRecord → PhaseRecord → Prop
  | .resume index _ => (sys.calls[index]?.map Call.phases).getD PhaseRecord.Moves
  | _ => PhaseRecord.Moves

instance (sys : System) (e : Event) (i : UInt64) : IsPreorder SessionState (sys.moves e i) := by
  unfold moves
  split
  · infer_instance
  · next index _ =>
    cases sys.calls[index]? with
    | none => exact inferInstanceAs (IsPreorder _ Eq)
    | some call => exact inferInstanceAs (IsPreorder _ (call.moves i))
  · exact { refl := fun _ => trivial,trans := fun _ _ _ _ _ => trivial }

instance (sys : System) (e : Event) : IsPreorder PhaseRecord (sys.phases e) := by
  unfold phases
  split
  · next index _ =>
    cases sys.calls[index]? with
    | none => exact inferInstanceAs (IsPreorder _ PhaseRecord.Moves)
    | some call => exact inferInstanceAs (IsPreorder _ call.phases)
  · infer_instance

theorem resume_keeps (index : Nat) (w : World) (call : Call) :
    Runtime.Keeps call.moves call.phases sys.rt
      (sys.resume index w (sys.rt.facing w) call).rt := by
  cases call with
  | phase run => exact Runtime.facing_keeps (run.step_keeps w (sys.rt.facing w))
  | session run => exact Runtime.facing_keeps (run.step_keeps w sys.calls (sys.rt.facing w))
  | cancel session reason remaining =>
    refine Runtime.facing_keeps (w := w) ?_
    cases remaining with
    | nil => exact (Runtime.endCancelSession_within w session reason (sys.rt.facing w)).moves
    | cons phase rest =>
      exact (Runtime.cancelPhase_within w session phase reason (sys.rt.facing w)).moves
  | recovery session plan =>
    exact Runtime.facing_keeps (Runtime.endRecovery_within w session plan (sys.rt.facing w)).moves
  | stopping => exact Runtime.facing_keeps (Runtime.endShutdown_within w (sys.rt.facing w)).moves
  | ran | drove | created | recovered | ended => exact Std.Refl.refl sys.rt

/-- One event of a process, whatever the callers interleave. -/
theorem apply_keeps {e : Event} (h : e.inProcess) :
    Runtime.Keeps (sys.moves e) (sys.phases e) sys.rt (sys.apply e).rt := by
  cases e with
  | call command w =>
    have hc := command.start_keeps w (sys.rt.facing w)
    simp only [apply]
    split
    · exact Runtime.facing_keeps hc
    · exact Std.Refl.refl sys.rt
  | resume index w =>
    simp only [apply]
    split
    · cases hc : sys.calls[index]? with
      | none => exact Std.Refl.refl sys.rt
      | some call =>
        simp only [moves,phases,hc]
        exact sys.resume_keeps index w call
    · exact Std.Refl.refl sys.rt
  | restart options adapters w => exact h.elim

/-- The event is the next locked part of a `run_phase`. -/
def Runs (e : Event) (w : World) (run : PhaseRun) : Prop :=
  sys.up ∧ ∃ index,e=.resume index w ∧ sys.calls[index]?=some (.phase run)

variable {sys}

theorem Runs.rt {e : Event} {w : World} {run : PhaseRun} (h : sys.Runs e w run) :
    (sys.apply e).rt=(run.step w (sys.rt.facing w)).2 := by
  have ⟨hu,index,he,hc⟩ := h
  subst he
  simp only [apply,hu,if_true,hc,resume,put]

theorem Runs.reserve {e : Event} {w : World} {run : PhaseRun} (h : sys.Runs e w run)
    (hpc : run.pc=.reserve) : (sys.apply e).rt=
      (Runtime.reserve w run.session run.phase run.isRetry (sys.rt.facing w)).2 := by
  rw [h.rt,PhaseRun.step,hpc]
  dsimp only
  split
  · next he => rw [he]
  · next he => rw [he]

theorem Runs.commit {e : Event} {w : World} {run : PhaseRun} {r : Reservation}
    {report : ExecutionReport} (h : sys.Runs e w run) (hpc : run.pc=.commit r report) :
    (sys.apply e).rt=(Runtime.commitReserved w r report (sys.rt.facing w)).2 := by
  rw [h.rt,PhaseRun.step,hpc]
  exact PhaseRun.after_snd _ _

/-- What a phase is bound to and committed with is written by reservations and commits only. -/
theorem apply_cases {e : Event} (h : e.inProcess) :
    Runtime.Keeps (sys.moves e) PhaseRecord.Moves sys.rt (sys.apply e).rt ∨
      ∃ w run,sys.Runs e w run ∧ (run.pc=.reserve ∨ ∃ r report,run.pc=.commit r report) := by
  have hk := sys.apply_keeps h
  have moves (hp : sys.phases e=PhaseRecord.Moves) :
      Runtime.Keeps (sys.moves e) PhaseRecord.Moves sys.rt (sys.apply e).rt := by
    rwa [hp] at hk
  cases e with
  | call command w => exact .inl (moves rfl)
  | restart options adapters w => exact h.elim
  | resume index w =>
    cases hc : sys.calls[index]? with
    | none => exact .inl (moves (by simp only [phases,hc]; rfl))
    | some call =>
      have hph : sys.phases (.resume index w)=call.phases := by simp only [phases,hc]; rfl
      cases call with
      | phase run =>
        have run_phases (hpc : run.phases=PhaseRecord.Moves) :
            sys.phases (.resume index w)=PhaseRecord.Moves := hph.trans hpc
        by_cases hu : sys.up
        · have hr : sys.Runs (.resume index w) w run := ⟨hu,index,rfl,hc⟩
          cases hpc : run.pc with
          | reserve => exact .inr ⟨w,run,hr,.inl hpc⟩
          | commit r report => exact .inr ⟨w,run,hr,.inr ⟨r,report,hpc⟩⟩
          | _ => exact .inl (moves (run_phases (by simp only [PhaseRun.phases,hpc])))
        · refine .inl ?_
          simp only [apply,hu]
          exact Std.Refl.refl sys.rt
      | _ => exact .inl (moves hph)

end System

end CompilerFabric
