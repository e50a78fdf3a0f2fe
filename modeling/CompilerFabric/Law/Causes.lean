import CompilerFabric.Runtime.Restart
import CompilerFabric.Runtime.Steps

namespace CompilerFabric

open Base Base.Action

/-- A failure of this report has a class: its status names one, or the compiler was started and
did not end by exiting. -/
def ExecutionReport.explained (report : ExecutionReport) : Bool :=
  report.executed && (report.process.exitedZero || report.process.termination ≠ .exited) ||
    report.status ≠ .ok

/-- What `report_output` is handed is explained. -/
def ProcessOutcome.explained (process : ProcessOutcome) : Bool :=
  process.exitedZero || process.termination=.crashed || process.status.code ≠ .ok

theorem classifyStatus_none {code : StatusCode} : classifyStatus code=.none ↔ code=.ok := by
  have either {p : Prop} [Decidable p] {a b : FailureClass} (ha : a ≠ .none) (hb : b ≠ .none) :
      (if p then a else b) ≠ .none := by
    split
    · exact ha
    · exact hb
  constructor
  · intro h
    by_contra hn
    revert h
    rw [classifyStatus,if_neg hn]
    iterate 10 refine either nofun ?_
    nofun
  · intro h
    rw [classifyStatus,if_pos h]

theorem classifyExecutionFailure_none {report : ExecutionReport}
    (hf : ¬(report.executed ∧ report.process.exitedZero)) :
    classifyExecutionFailure report=.none ↔ report.explained=false := by
  have lost : ∀ code ∈ [StatusCode.protocolPeerClosed,.protocolIo,.unknownOutcome,
      .integrityUnproven],code ≠ .ok := by decide
  unfold classifyExecutionFailure ExecutionReport.explained
  by_cases he : report.executed
  · have hz : report.process.exitedZero=false := by simpa [he] using hf
    rw [if_pos he]
    cases ht : report.process.termination <;> simp [he,hz,classifyStatus_none]
  · rw [if_neg he]
    split_ifs with hp hu
    · have hs : report.status ≠ .ok := by
        rcases hp with hp | hp <;> exact lost _ (by simp [hp])
      simp [he,hs]
    · have hs : report.status ≠ .ok := by
        rcases hu with hu | hu <;> exact lost _ (by simp [hu])
      simp [he,hs]
    · simp [he,classifyStatus_none]

namespace PhaseRecord

instance (p : PhaseRecord) : Decidable p.Caused := inferInstanceAs (Decidable (_ → _))

def Causes (p q : PhaseRecord) : Prop := p.Caused → q.Caused

instance : Allows Causes where
  refl _ h := h
  trans _ _ _ h h' hp := h' (h hp)
  calm h := h.cause

variable {p : PhaseRecord}

/-- A write that leaves the state and the class alone. -/
theorem Causes.note {q : PhaseRecord} (hs : q.state=p.state) (hf : q.failure=p.failure) :
    Causes p q := by
  intro hp h
  rw [hf]
  exact hp (hs.symm.trans h)

theorem Causes.record {q : PhaseRecord} {next : PhaseState} (reason : Bytes) (now : UInt64)
    (hn : next ≠ .failed) (h : Causes p q) : Causes p (q.recordTransition next reason now) :=
  fun hp => q.recordTransition_caused reason now hn (h hp)

theorem executionFailed_caused {r : Reservation} {report : ExecutionReport} {now : UInt64}
    (hx : report.explained) (hf : ¬(report.executed ∧ report.process.exitedZero)) :
    (p.executionFailed r report now).Caused := by
  intro _ hn
  rw [executionFailed,recordTransition_failure] at hn
  have hn := (classifyExecutionFailure_none hf).1 hn
  rw [hx] at hn
  cases hn

theorem produced_causes (r : Reservation) (now : UInt64) : Causes p (p.produced r now) :=
  Causes.note rfl rfl |> IsTrans.trans _ _ _ (.record _ now (by decide) fun h => h)

theorem committed_causes (commit : CommitId) (now : UInt64) : Causes p (p.committed commit now) :=
  .record _ now (by decide) (.note rfl rfl)

theorem validationFailed_caused {evidence : ValidationEvidence} {now : UInt64}
    (h : evidence.refusal ≠ .ok) : (Runtime.validationFailed evidence now p).Caused := by
  intro _ hn
  rw [Runtime.validationFailed,recordTransition_failure] at hn
  exact h (classifyStatus_none.1 hn)

end PhaseRecord

theorem Table.forall_toList {α : Type} {P : α → Prop} (m : Table α) :
    (∀ x ∈ m.toList,P x.2) ↔ ∀ (i : UInt64) a,m[i]?=some a → P a := by
  constructor
  · intro h i a ha
    exact h (i,a) (Std.ExtTreeMap.mem_toList_iff_getElem?_eq_some.2 ha)
  · intro h x hx
    exact h x.1 x.2 (Std.ExtTreeMap.mem_toList_iff_getElem?_eq_some.1 hx)

namespace CompilerSession

/-- Every phase of it that failed carries a class. -/
def Caused (s : CompilerSession) : Prop := ∀ (i : UInt64) p,s.phases[i]?=some p → p.Caused

instance (s : CompilerSession) : Decidable s.Caused := decidable_of_iff _ s.phases.forall_toList

variable {s t : CompilerSession}

theorem Evolves.caused {σ : SessionState → SessionState → Prop}
    (h : Evolves σ PhaseRecord.Causes s t) (hs : s.Caused) : t.Caused := by
  intro i q hq
  obtain ⟨p,hp,hpq⟩ := @before _ _ _ _ ⟨i⟩ _ h hq
  exact hpq (hs i p hp)

theorem newSession_caused (request : CompileRequest) (parts : Runtime.SessionParts)
    (epoch now : UInt64) : (Runtime.newSession request parts epoch now).Caused := by
  intro i p hp hf
  rw [Runtime.newSession,emplacePhases_getElem?] at hp
  have hm := List.mem_of_find?_eq_some hp
  have ⟨node,_,he⟩ := List.mem_map.1 hm
  subst he
  cases hf

end CompilerSession

namespace Runtime

variable {w : World} {r : Reservation} {sid : CompilerSessionId} {pid : CompilerPhaseId}
  {rt t : Runtime}

/-- Every failed phase carries the class the retry policy decides on. -/
def Caused (rt : Runtime) : Prop := ∀ (i : UInt64) s,rt.sessions[i]?=some s → s.Caused

instance (rt : Runtime) : Decidable rt.Caused := decidable_of_iff _ rt.sessions.forall_toList

def Causes (rt t : Runtime) : Prop := rt.Caused → t.Caused

instance : IsPreorder Runtime Causes where
  refl _ h := h
  trans _ _ _ h h' hc := h' (h hc)

theorem Causes.of_sessions (h : t.sessions=rt.sessions) : Causes rt t :=
  fun hc i s hs => hc i s (h ▸ hs)

theorem causes_modifySession {f : CompilerSession → CompilerSession} (hs : t.sessions=
    rt.sessions.modify sid.value f) (hf : ∀ s,rt.find sid=some s → s.Caused → (f s).Caused) :
    Causes rt t := by
  intro hc i s hi
  rw [hs,Std.ExtTreeMap.getElem?_modify] at hi
  split at hi
  · next hk =>
    cases Std.LawfulEqCmp.eq_of_compare hk
    have ⟨s₀,h₀,he⟩ := Option.map_eq_some_iff.1 hi
    rw [← he]
    exact hf s₀ h₀ (hc _ s₀ h₀)
  · exact hc i s hi

theorem causes_insert {session : CompilerSession} (h : session.Caused) (k : UInt64) :
    Causes rt { rt with sessions := rt.sessions.insertIfNew k session } := by
  intro hc i s hi
  rw [Std.ExtTreeMap.getElem?_insertIfNew] at hi
  split at hi
  · cases hi
    exact h
  · exact hc i s hi

section Parts

variable {α : Type} {x : Op α}

theorem Evolves.causes {σ : UInt64 → SessionState → SessionState → Prop}
    (h : Evolves σ PhaseRecord.Causes rt t) : Causes rt t := by
  intro hc i s' hi
  have he := h.sessions i
  rw [hi] at he
  cases hs : rt.sessions[i]? with
  | none =>
    rw [hs] at he
    cases he
  | some s =>
    rw [hs] at he
    cases he with
    | some he => exact he.caused (hc i s hs)

theorem causes_of_evolves {σ : UInt64 → SessionState → SessionState → Prop}
    (h : Within (Evolves σ PhaseRecord.Causes) x) : Within Causes x := h.mono fun _ _ h => h.causes

theorem causes_of_aside (h : Within Aside x) : Within Causes x :=
  h.mono fun _ _ h => .of_sessions h.sessions

theorem writePhase_causes {f : PhaseRecord → PhaseRecord} (h : ∀ p : PhaseRecord,p.Causes (f p)) :
    Within Causes (modify (·.modifyPhase sid pid f) : Op Unit) :=
  causes_of_evolves (σ := fun _ => Eq) (modifyPhase_within sid pid h)

theorem touchPhase_causes {f : PhaseRecord → PhaseRecord} {now : UInt64}
    (h : ∀ p : PhaseRecord,p.Causes (f p)) : Within Causes
      (modify (·.modifySession sid fun s => (s.modifyPhase pid f).touched now) : Op Unit) :=
  causes_of_evolves (σ := fun _ => Eq)
    (modifySession_within sid fun s => touched_evolves now (s.modifyPhase_evolves pid h))

theorem persistSession_causes : Within Causes (persistSession w sid) :=
  causes_of_aside (persistSession_aside w sid)

end Parts

theorem registerOutput_causes (session : CompilerSession) (phase : PhaseRecord)
    (output : OutputDescriptor) : Within Causes (registerOutput r session phase output) := by
  refine (causes_of_aside (registerArtifact_aside _)).bind fun reference => ?_
  refine Within.bind (causes_of_evolves (σ := fun _ => Eq) (modifySession_within _ fun s => ?_))
    fun _ _ => .of_sessions rfl
  refine CompilerSession.Evolves.trans (s.modifyPhase_evolves r.phase fun p => ?_)
    (.note rfl rfl rfl)
  exact .note rfl rfl

/-- The failing branch is the one that needs the report to be explained. -/
theorem recordExecution_causes {report : ExecutionReport} (hx : report.explained) :
    Within Causes (recordExecution w r report) := by
  refine Within.get.bind fun rt => (Within.ofExcept _).bind fun (session,phase) => ?_
  refine Within.bind (writePhase_causes fun p => .note rfl rfl) fun _ => ?_
  refine (causes_of_evolves (σ := fun _ => Eq) (addDiagnostics_within _)).bind fun stored => ?_
  refine Within.bind (writePhase_causes fun p => .note rfl rfl) fun _ => ?_
  refine Within.bind (fun _ => .of_sessions rfl) fun _ => ?_
  split
  · refine Within.bind (writePhase_causes fun p => p.produced_causes r w.now) fun _ => ?_
    refine (Within.forEach (registerOutput_causes session phase) _).bind fun _ => ?_
    refine Within.bind ?_ fun _ => ?_
    · intro rt
      have h : Evolves (fun _ => Eq) PhaseRecord.Causes rt (digestOutputs r rt).2 :=
        rt.modifyPhase_evolves r.session r.phase fun p => .note rfl rfl
      exact h.causes
    · refine Within.bind (touchPhase_causes fun p => ?_) fun _ => persistSession_causes
      exact .record _ _ (by decide) fun h => h
  · next hf =>
    refine Within.bind (touchPhase_causes fun p _ => ?_) fun _ => persistSession_causes
    exact p.executionFailed_caused hx hf

/-- A reserved phase is PREPARING. -/
theorem reserve_causes (isRetry : Bool) : Within Causes (reserve w sid pid isRetry) := by
  intro rt
  cases hx : reserve w sid pid isRetry rt with
  | mk result t =>
    rcases reserve_spec w sid pid hx with ⟨⟨hs,_⟩,_⟩ | ⟨s,p,inputs,r,h,_⟩
    · exact .of_sessions hs
    · have ha := (admission_iff sid pid).1 h.admitted
      refine causes_modifySession h.sessions fun s' hs' hc i q hq => ?_
      cases ha.session.symm.trans hs'
      have hm : (s.phases.modify r.phase.value _)[i]?=some q := hq
      rw [Std.ExtTreeMap.getElem?_modify] at hm
      split at hm
      · next hk =>
        cases Std.LawfulEqCmp.eq_of_compare hk
        have hp := ha.phase
        rw [CompilerSession.findPhase,← h.phase] at hp
        rw [hp] at hm
        cases hm
        intro hf
        rw [reserved_preparing r ha.startable] at hf
        cases hf
      · exact hc i q hm

theorem commitReserved_causes (report : ExecutionReport) :
    Within Causes (commitReserved w r report) := by
  intro rt
  refine Within.bind_at (Std.Refl.refl rt) ?_
  rintro _ _ ⟨⟩
  refine Within.bind_at (Std.Refl.refl rt) ?_
  rintro ⟨session,phase⟩ t ht
  have ⟨hc,he⟩ := ofExcept_eq_ok.1 ht
  subst he
  have ⟨hl,_⟩ := committable_ok r hc
  refine Within.bind_at ?_ ?_
  · exact causes_of_evolves (σ := fun _ => Eq) (reprobe_within w r session phase) rt
  intro _ t ht
  have hl : t.find r.session=some session := by rw [find_of_sessions (reprobe_sessions w r ht),hl]
  refine Within.bind_at (Std.Refl.refl t) ?_
  rintro _ _ ⟨⟩
  dsimp only
  split
  · rcases publish_sessions w r report session phase t with h | ⟨commit,candidate,_,h⟩
    · exact .of_sessions h
    · refine causes_modifySession h fun s hs hcaused => ?_
      cases hl.symm.trans hs
      have hcommit := committedPhase_evolves session phase.id commit w.now
        fun p => p.committed_causes commit w.now
      exact (withCandidate_evolves _ candidate).caused (hcommit.caused hcaused)
  · exact causes_of_evolves (σ := fun _ => Eq) (refuseCommit_within w r phase _) t

theorem createSession_causes (request : CompileRequest) :
    Within Causes (createSession w request) := by
  refine (causes_of_evolves (σ := fun _ => Eq) ?_).bind fun parts => Within.get.bind fun rt => ?_
  · exact sessionParts_within w request
  refine (causes_of_aside (persist_aside w _)).bind fun _ => ?_
  refine Within.bind (fun rt => causes_insert (CompilerSession.newSession_caused _ _ _ _) _) fun _ => ?_
  exact Within.bind (fun _ => .of_sessions rfl) fun _ => .pure _

theorem recovered_caused {session : CompilerSession} (h : session.Caused) (epoch now : UInt64) :
    (recovered session epoch now).Caused := by
  unfold recovered
  dsimp only
  split <;> exact h

theorem adoptSession_causes {session : CompilerSession} (h : session.Caused) :
    Within Causes (adoptSession w session) := by
  refine Within.get.bind fun rt => (Within.ofExcept _).bind fun _ => (Within.ofExcept _).bind fun _ => ?_
  refine Within.bind (fun _ => .of_sessions rfl) fun _ => ?_
  intro t
  refine Within.bind_at ?_ fun fenced u hu => ?_
  · exact (fenceAllInFlight_aside w _ session).mono (fun _ _ h => .of_sessions h.sessions) t
  have hfenced : CompilerSession.Evolves Eq PhaseRecord.Causes session fenced :=
    fenceAllInFlight_evolves w _ hu
  refine (causes_of_aside (persist_aside w _)).bind (fun _ => ?_) u
  exact Within.bind (fun rt => causes_insert (recovered_caused (hfenced.caused h) _ _) _)
    fun _ => .pure _

theorem reportOutput_causes {generation : CompilerPhaseGeneration} {invocation : Ref .invocation}
    {outputs : List OutputDescriptor} {process : ProcessOutcome} (h : process.explained) :
    Within Causes (reportOutput w sid pid generation invocation outputs process) := by
  refine Within.get.bind fun _ => (Within.ofExcept _).bind fun _ => (Within.ofExcept _).bind fun _ =>
    (Within.ofExcept _).bind fun _ => (Within.ofExcept _).bind fun _ => Within.bind ?_ fun _ =>
      Within.get.bind fun _ => .pure _
  refine recordExecution_causes ?_
  unfold ProcessOutcome.explained at h
  unfold ExecutionReport.explained ProcessOutcome.exitedZero
  unfold ProcessOutcome.exitedZero at h
  cases ht : process.termination <;> simp_all

/-- The bundles a start reads leave no failed phase without a class. -/
def ReplaysCaused (w : World) (options : RuntimeOptions) (file : Bytes) : Bool :=
  (replayed w options file).toList.all fun entry => entry.2.session.Caused

theorem create_caused {options : RuntimeOptions} {file : Bytes} (adapters : List Adapter)
    (h : ReplaysCaused w options file) : (create w options adapters file).2.Caused := by
  intro i s hs
  have ⟨b,hb,he⟩ := (create_spec w options adapters file).1 i s hs
  have hb : b.session.Caused := by
    refine (Table.forall_toList (P := fun b => b.session.Caused) _).1 (fun x hx => ?_) i b hb
    exact of_decide_eq_true (List.all_eq_true.1 h x hx)
  exact (he.mono (fun _ _ h => h) fun _ _ h => h.cause).caused hb

end Runtime

namespace System

/-- What is handed to the process says why a compilation failed: an executor's report, a completion
from outside, the adapter's evidence, a refused invocation, and the sessions it takes over. -/
def explains (sys : System) : Event → Bool
  | .call (.failPhase ..) _ => false
  | .call (.adoptSession session) _ => session.Caused
  | .call (.reportOutput _ _ _ _ _ process) _ => process.explained
  | .call .. => true
  | .resume index w => match sys.calls[index]? with
      | some (.phase run) => match run.pc with
          | .prepare _ => w.invalidInvocation.all (·.code ≠ .ok)
          | .record _ report => report.explained
          | .judge .. => match w.evidence with
              | .ok evidence => evidence.accepted || evidence.refusal ≠ .ok
              | .error _ => true
          | _ => true
      | _ => true
  | .restart options _ w => Runtime.ReplaysCaused w options sys.journal

/-- Every event is explained in the state it meets. -/
def Explained : System → List Event → Bool
  | _,[] => true
  | sys,e::events => sys.explains e && Explained (sys.apply e) events

end System

namespace PhaseRun

variable {w : World} {run : PhaseRun}

theorem step_causes {sys : System} {index : Nat} (hc : sys.calls[index]?=some (.phase run))
    (hx : sys.explains (.resume index w)) (rt : Runtime) : rt.Causes (run.step w rt).2 := by
  simp only [System.explains,hc] at hx
  unfold step
  cases hpc : run.pc with
  | reserve =>
    have h := @Runtime.reserve_causes w run.session run.phase run.isRetry rt
    dsimp only
    split
    · next he => rwa [he] at h
    · next he => rwa [he] at h
  | prepare r =>
    rw [hpc] at hx
    have h := Runtime.causes_of_evolves (σ := fun _ => Eq) (Runtime.prepare_allows w r ?_) rt
    · dsimp only
      split
      · next he => rwa [he] at h
      · next he => rwa [he] at h
    · intro e he p hp _ hn
      rw [he] at hx
      exact of_decide_eq_true hx (classifyStatus_none.1 hn)
  | execute r =>
    dsimp only
    split
    · exact Std.Refl.refl rt
    · exact Runtime.causes_of_evolves (σ := fun _ => Eq) (Runtime.noteProcess_within r _) rt
  | record r report =>
    rw [hpc] at hx
    dsimp only
    rw [after_snd]
    refine Runtime.recordExecution_causes ?_ rt
    unfold Runtime.withDiagnostics
    dsimp only
    split <;> exact hx
  | inspect r report =>
    dsimp only
    split
    · split <;> exact Std.Refl.refl rt
    · exact Std.Refl.refl rt
  | reproduce r report =>
    dsimp only
    split <;> exact Std.Refl.refl rt
  | verify r report =>
    dsimp only
    split <;> exact Std.Refl.refl rt
  | refuse r status =>
    dsimp only
    rw [after_snd]
    exact Runtime.causes_of_evolves (σ := fun _ => Eq) (Runtime.refuseDivergent_within w r status) rt
  | validate r report =>
    dsimp only
    split <;> exact Std.Refl.refl rt
  | judge r report =>
    rw [hpc] at hx
    dsimp only
    split
    · exact Std.Refl.refl rt
    · next evidence he =>
      rw [after_snd]
      refine Runtime.causes_of_evolves (σ := fun _ => Eq)
        (Runtime.applyEvidence_allows w r evidence fun ha p _ => ?_) rt
      simp only [he,Bool.or_eq_true,decide_eq_true_eq] at hx
      exact p.validationFailed_caused (hx.resolve_left ha)
  | commit r report =>
    dsimp only
    rw [after_snd]
    exact Runtime.commitReserved_causes report rt

end PhaseRun

theorem SessionRun.step_causes (w : World) (run : SessionRun) (calls : List Call) (rt : Runtime) :
    rt.Causes (run.step w calls rt).2.2 := by
  unfold step
  cases run.pc with
  | limit =>
    dsimp only
    split <;> exact Std.Refl.refl rt
  | ceiling =>
    dsimp only
    split <;> exact Std.Refl.refl rt
  | round =>
    dsimp only
    split
    · exact Runtime.causes_of_evolves (Runtime.failSession_within w run.session _) rt
    · have h := Runtime.causes_of_evolves (Runtime.beginRound_within w run.session) rt
      split
      · next he => rwa [he] at h
      · next he => rwa [he] at h
      · next he => rwa [he] at h
      · next he => rwa [he] at h
  | waiting children =>
    dsimp only
    split
    · exact Std.Refl.refl rt
    · split
      · exact Std.Refl.refl rt
      · split
        · exact Std.Refl.refl rt
        · exact Runtime.causes_of_evolves (Runtime.failIfActive_within w run.session _) rt
  | finish =>
    dsimp only
    split <;> exact Std.Refl.refl rt

theorem Command.start_causes {sys : System} {w : World} {c : Command}
    (hx : sys.explains (.call c w)) (rt : Runtime) : rt.Causes (c.start w rt).2 := by
  have calm {α : Type} {x : Op α} (h : Within (Runtime.Evolves (fun _ => Eq) PhaseRecord.Causes) x) :
      rt.Causes (x rt).2 := Runtime.causes_of_evolves h rt
  cases c with
  | createSession request => exact Runtime.createSession_causes request rt
  | adoptSession session => exact Runtime.adoptSession_causes (of_decide_eq_true hx) rt
  | reportOutput session phase generation invocation outputs process =>
    exact Runtime.reportOutput_causes hx rt
  | failPhase => cases hx
  | retryPhase session phase =>
    have h := calm (Runtime.beginRetry_within session phase)
    simp only [start]
    split
    · next he => rwa [he] at h
    · next he => rwa [he] at h
    · next he => rwa [he] at h
  | cancelPhase session phase reason => exact calm (Runtime.cancelPhase_within w session phase reason)
  | cancelSession session reason =>
    simp only [start]
    split <;> exact Std.Refl.refl rt
  | retireSession session reason =>
    exact Runtime.causes_of_evolves (Runtime.retireSession_within w session reason) rt
  | commitPhase session phase generation invocation =>
    simp only [start]
    split <;> exact Std.Refl.refl rt
  | applyRecovery session =>
    have h := calm (Runtime.beginRecovery_within session)
    simp only [start]
    split
    · next he => rwa [he] at h
    · next he => rwa [he] at h
  | shutdown =>
    have h := calm (Runtime.beginShutdown_within w)
    simp only [start]
    split
    · next he => rwa [he] at h
    · next he => rwa [he] at h
    · next he => rwa [he] at h
  | discoverToolchain family => exact calm (Runtime.discoverToolchain_within w family)
  | refreshToolchain id => exact calm (Runtime.refreshToolchain_within w id)
  | invalidateToolchain id reason => exact calm (Runtime.moveToolchain_within _)
  | applyToolchainObservation observed => exact calm (Runtime.moveToolchain_within _)
  | internTarget spec => exact calm (Runtime.onTargets_within _)
  | reviseTarget id spec => exact calm (Runtime.onTargets_within _)
  | internEnvironment spec => exact calm (Runtime.onEnvironments_within _)
  | reviseEnvironment id spec => exact calm (Runtime.onEnvironments_within _)
  | internPolicy spec =>
    exact calm (Runtime.onPolicies_within fun _ _ _ => SpecRegistry.internWith_advances)
  | revisePolicy id spec =>
    exact calm (Runtime.onPolicies_within fun _ _ _ => SpecRegistry.reviseWith_advances)
  | addSource => exact calm (Runtime.addSource_within _)
  | _ => exact .of_sessions rfl

namespace System

variable {sys : System} {e : Event} {events : List Event}

/-- Every event keeps a class on what has failed, as long as it is explained. -/
theorem apply_caused (hx : sys.explains e) (h : sys.rt.Caused) : (sys.apply e).rt.Caused := by
  have facing {w : World} {t : Runtime} (ht : (sys.rt.facing w).Causes t) : t.Caused := ht h
  cases e with
  | call command w =>
    simp only [apply]
    split
    · exact facing (w := w) (Command.start_causes hx (sys.rt.facing w))
    · exact h
  | resume index w =>
    simp only [apply]
    split
    · cases hc : sys.calls[index]? with
      | none => exact h
      | some call =>
        cases call with
        | phase run => exact facing (w := w) (PhaseRun.step_causes hc hx (sys.rt.facing w))
        | session run => exact facing (w := w) (run.step_causes w sys.calls (sys.rt.facing w))
        | cancel session reason remaining =>
          refine facing (w := w) ?_
          cases remaining with
          | nil =>
            exact Runtime.causes_of_evolves (Runtime.endCancelSession_within w session reason) _
          | cons phase rest =>
            exact Runtime.causes_of_evolves (σ := fun _ => Eq)
              (Runtime.cancelPhase_within w session phase reason) _
        | recovery session plan =>
          exact facing (w := w)
            (Runtime.causes_of_evolves (Runtime.endRecovery_within w session plan) _)
        | stopping =>
          exact facing (w := w) (Runtime.causes_of_evolves (Runtime.endShutdown_within w) _)
        | ran | drove | created | recovered | ended => exact h
    · exact h
  | restart options adapters w => exact Runtime.create_caused adapters hx

theorem run_caused (h : sys.rt.Caused) (hx : sys.Explained events) (n : Nat) :
    (sys.run (events.take n)).rt.Caused := by
  induction events generalizing sys n with
  | nil => simpa [run] using h
  | cons e events ih =>
    cases n with
    | zero => exact h
    | succ n =>
      obtain ⟨he,hrest⟩ := Bool.and_eq_true_iff.1 hx
      exact ih (apply_caused he h) hrest n

end System

namespace Sample

/-- The compiler exits with 1. -/
def exitOne (status : StatusCode) : World := { world with
  execution := .ok { report with
    process := { id := ⟨1⟩,termination := .exited,exitCode := 1 }
    status := status } }

/-- A `run_phase` up to the record of that completion. -/
def failing (status : StatusCode) : List Event :=
  [.call (.discoverToolchain family) world,.call (.createSession request) world,
    .call (.runPhase ⟨1⟩ ⟨1⟩) world]++List.replicate 4 (.resume 2 (exitOne status))

/-- A `fail_phase`. -/
def fails : Event → Bool
  | .call (.failPhase ..) _ => true
  | _ => false

end Sample

end CompilerFabric
