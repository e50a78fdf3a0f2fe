import CompilerFabric.Runtime.Calls

namespace CompilerFabric

open Base Base.Action

theorem Generation.le_next {tag : IdTag} (g : Generation tag) : g.value ≤ g.next.value := by
  unfold next
  split
  · exact UInt64.le_refl _
  · next h =>
    rw [UInt64.le_iff_toNat_le]
    have hn := g.next_toNat h
    rw [next,if_neg h] at hn
    rw [hn]
    exact Nat.le_succ _

namespace CompilerSession

/-- The attempt generation and the count of retries stand still, and the generation does not go
back. -/
structure Ticks (s s' : CompilerSession) : Prop where
  attemptGeneration : s'.attemptGeneration=s.attemptGeneration
  retries : s'.sessionRetriesUsed=s.sessionRetriesUsed
  generation : s.generation.value ≤ s'.generation.value

instance : IsPreorder CompilerSession Ticks where
  refl _ := ⟨rfl,rfl,UInt64.le_refl _⟩
  trans _ _ _ h h' := ⟨h'.attemptGeneration.trans h.attemptGeneration,h'.retries.trans h.retries,
    UInt64.le_trans h.generation h'.generation⟩

theorem Ticks.trans {s t u : CompilerSession} (h : Ticks s t) (h' : Ticks t u) : Ticks s u :=
  IsTrans.trans _ _ _ h h'

theorem Ticks.same {s s' : CompilerSession} (ha : s'.attemptGeneration=s.attemptGeneration)
    (hr : s'.sessionRetriesUsed=s.sessionRetriesUsed) (hg : s'.generation=s.generation) :
    Ticks s s' := ⟨ha,hr,hg ▸ UInt64.le_refl _⟩

theorem Ticks.next {s s' : CompilerSession} (ha : s'.attemptGeneration=s.attemptGeneration)
    (hr : s'.sessionRetriesUsed=s.sessionRetriesUsed) (hg : s'.generation=s.generation.next) :
    Ticks s s' := by
  refine ⟨ha,hr,?_⟩
  rw [hg]
  exact s.generation.le_next

theorem resumed_ticks (s : CompilerSession) (now : UInt64) : s.Ticks (s.resumed now) := by
  unfold resumed
  generalize s.plan.order=order
  induction order generalizing s with
  | nil => exact Std.Refl.refl s
  | cons id rest ih =>
    rw [List.foldl_cons]
    exact Ticks.trans (t := s.modifyPhase id _) (.same rfl rfl rfl) (ih _)

theorem afterRecovery_ticks (s : CompilerSession) (plan : RecoveryPlan) (now : UInt64) :
    s.Ticks (s.afterRecovery plan now) := by
  have hr : s.Ticks ((s.planned plan).reopened plan.requiresOperator now) := by
    refine Ticks.trans (t := s.planned plan) (.same rfl rfl rfl) ?_
    unfold reopened
    split_ifs
    · exact ((s.planned plan).resumed_ticks now).trans (.same rfl rfl rfl)
    · exact .same rfl rfl rfl
    · exact Std.Refl.refl _
  exact hr.trans (.next rfl rfl rfl)

theorem committedPhase_ticks (s : CompilerSession) (pid : CompilerPhaseId) (commit : CommitId)
    (now : UInt64) : s.Ticks (s.committedPhase pid commit now) := by
  unfold committedPhase
  dsimp only
  split <;> exact .next rfl rfl rfl

theorem withCandidate_ticks (s : CompilerSession) (candidate : Option FinalCandidate) :
    s.Ticks (s.withCandidate candidate) := by
  cases candidate with
  | none => exact Std.Refl.refl s
  | some candidate =>
    unfold withCandidate
    dsimp only
    split <;> exact .same rfl rfl rfl

end CompilerSession

namespace Runtime

/-- No session is lost, and each of them ticks. -/
def Ticks (rt t : Runtime) : Prop := ∀ (i : UInt64) (s : CompilerSession),rt.sessions[i]?=some s →
  ∃ s',t.sessions[i]?=some s' ∧ s.Ticks s'

instance : IsPreorder Runtime Ticks where
  refl _ _ s hs := ⟨s,hs,Std.Refl.refl s⟩
  trans := by
    intro rt t u h h' i s hs
    have ⟨s',hs',ht⟩ := h i s hs
    have ⟨s'',hs'',ht'⟩ := h' i s' hs'
    exact ⟨s'',hs'',ht.trans ht'⟩

variable {rt t : Runtime}

/-- A write elsewhere. -/
theorem Ticks.of_sessions (h : t.sessions=rt.sessions) : Ticks rt t :=
  fun _ s hs => ⟨s,h ▸ hs,Std.Refl.refl s⟩

theorem modifySession_ticks {sid : CompilerSessionId} {f : CompilerSession → CompilerSession}
    (h : ∀ s,rt.find sid=some s → s.Ticks (f s)) : Ticks rt (rt.modifySession sid f) := by
  intro i s hs
  simp only [modifySession,Std.ExtTreeMap.getElem?_modify]
  split
  · next hi =>
    have hi := Std.LawfulEqCmp.eq_of_compare hi
    subst hi
    exact ⟨f s,by rw [hs]; rfl,h s hs⟩
  · exact ⟨s,hs,Std.Refl.refl s⟩

section Operations

variable (w : World) (r : Reservation) (sid : CompilerSessionId) (pid : CompilerPhaseId)

theorem ticks_of_aside {α : Type} {x : Op α} (h : Within Aside x) : Within Ticks x :=
  h.mono fun _ _ h => .of_sessions h.sessions

theorem persist_ticks (session : CompilerSession) : Within Ticks (persist w session) :=
  ticks_of_aside (persist_aside w session)

theorem persistSession_ticks : Within Ticks (persistSession w sid) :=
  ticks_of_aside (persistSession_aside w sid)

theorem recordEvidence_ticks : Within Ticks recordEvidence := fun _ => .of_sessions rfl

theorem write_ticks {f : CompilerSession → CompilerSession} (h : ∀ s : CompilerSession,s.Ticks (f s)) :
    Within Ticks (modify (·.modifySession sid f) : Op Unit) :=
  fun _ => modifySession_ticks fun s _ => h s

/-- A write of a phase record leaves the counters of its session alone. -/
theorem writePhase_ticks (f : PhaseRecord → PhaseRecord) :
    Within Ticks (modify (·.modifyPhase sid pid f) : Op Unit) :=
  write_ticks sid fun _ => .same rfl rfl rfl

theorem revokeLease_ticks (id : LeaseId) (reason : Bytes) : Within Ticks (revokeLease id reason) :=
  fun _ => .of_sessions rfl

theorem revokeOutputs_ticks (phase : CompilerPhaseId) (generation : CompilerPhaseGeneration)
    (detail : Bytes) : Within Ticks (revokeOutputs phase generation detail) :=
  fun _ => .of_sessions rfl

theorem prepare_ticks : Within Ticks (prepare w r) := by
  refine Within.get.bind fun rt => (Within.ofExcept _).bind fun session =>
    (Within.ofExcept _).bind fun phase => (Within.ofExcept _).bind fun _ =>
      (Within.ofExcept _).bind fun _ => (Within.ofExcept _).bind fun _ => ?_
  split
  · exact .fail _
  · exact Within.bind (writePhase_ticks _ _ _) fun _ => .fail _
  · exact Within.bind (write_ticks _ fun _ => .same rfl rfl rfl) fun _ => persistSession_ticks w _

theorem noteProcess_ticks (report : ExecutionReport) : Within Ticks (noteProcess r report) := by
  unfold noteProcess
  split
  · exact writePhase_ticks _ _ _
  · exact .pure _

theorem refuseDivergent_ticks (e : Status) : Within Ticks (refuseDivergent w r e) := by
  refine Within.get.bind fun rt => ?_
  split
  · exact .pure _
  · refine Within.bind (writePhase_ticks _ _ _) fun _ => (revokeOutputs_ticks _ _ _).bind fun _ => ?_
    exact Within.bind (write_ticks _ fun _ => .next rfl rfl rfl) fun _ => persistSession_ticks w _

theorem setArtifactState_ticks (state : ArtifactState) (detail : Bytes) (o : Ref .intermediate) :
    Within Ticks (setArtifactState state detail o) := fun _ => .of_sessions rfl

theorem applyEvidence_ticks (evidence : ValidationEvidence) :
    Within Ticks (applyEvidence w r evidence) := by
  refine Within.get.bind fun rt => (Within.ofExcept _).bind fun session =>
    (Within.ofExcept _).bind fun phase => ?_
  refine (Within.forEach (setArtifactState_ticks _ _) _).bind fun _ => ?_
  split
  · refine Within.bind (fun _ => .of_sessions rfl) fun _ => ?_
    exact Within.bind (write_ticks _ fun _ => .same rfl rfl rfl) fun _ => persistSession_ticks w _
  · exact Within.bind (write_ticks _ fun _ => .same rfl rfl rfl) fun _ => persistSession_ticks w _

theorem cancelPhase_ticks (reason : Bytes) : Within Ticks (cancelPhase w sid pid reason) := by
  refine Within.get.bind fun rt => (Within.ofExcept _).bind fun session =>
    (Within.ofExcept _).bind fun phase => (Within.ofExcept _).bind fun _ => ?_
  refine (revokeLease_ticks _ _).bind fun _ => (revokeOutputs_ticks _ _ _).bind fun _ => ?_
  refine Within.bind (write_ticks _ fun _ => .next rfl rfl rfl) fun _ => ?_
  exact (persistSession_ticks w _).bind fun _ => recordEvidence_ticks.bind fun _ => .pure _

theorem endCancelSession_ticks (reason : Bytes) :
    Within Ticks (endCancelSession w sid reason) :=
  Within.get.bind fun _ => (Within.ofExcept _).bind fun _ =>
    Within.bind (write_ticks _ fun _ => .next rfl rfl rfl) fun _ => persistSession_ticks w _

theorem retirePhase_ticks (reason : Bytes) : Within Ticks (retirePhase w sid reason pid) := by
  refine Within.get.bind fun rt => ?_
  split
  · exact .pure _
  · exact (revokeLease_ticks _ _).bind fun _ => writePhase_ticks _ _ _

theorem retireSession_ticks (reason : Bytes) : Within Ticks (retireSession w sid reason) := by
  refine Within.get.bind fun rt => (Within.ofExcept _).bind fun session => ?_
  refine (Within.forEach (fun id => retirePhase_ticks w sid id reason) _).bind fun _ => ?_
  exact Within.bind (write_ticks _ fun _ => .next rfl rfl rfl) fun _ => persistSession_ticks w _

theorem failPhase_ticks (generation : CompilerPhaseGeneration) (failure : FailureClass)
    (status : StatusCode) (detail : Bytes) :
    Within Ticks (failPhase w sid pid generation failure status detail) := by
  refine Within.get.bind fun rt => (Within.ofExcept _).bind fun session =>
    (Within.ofExcept _).bind fun phase => (Within.ofExcept _).bind fun _ =>
      (Within.ofExcept _).bind fun _ => ?_
  refine Within.bind (writePhase_ticks _ _ _) fun _ => (revokeOutputs_ticks _ _ _).bind fun _ => ?_
  refine (revokeLease_ticks _ _).bind fun _ => ?_
  refine Within.bind (write_ticks _ fun _ => .next rfl rfl rfl) fun _ => ?_
  exact (persistSession_ticks w _).bind fun _ => Within.get.bind fun _ => .pure _

theorem reprobe_ticks (session : CompilerSession) (phase : PhaseRecord) :
    Within Ticks (reprobe w r session phase) := by
  refine Within.get.bind fun rt => ?_
  split
  · split
    · refine Within.bind (fun _ => .of_sessions rfl) fun _ => ?_
      refine Within.bind (writePhase_ticks _ _ _) fun _ => (revokeOutputs_ticks _ _ _).bind fun _ => ?_
      refine Within.bind (write_ticks _ fun _ => .next rfl rfl rfl) fun _ => ?_
      exact (persistSession_ticks w _).bind fun _ => .fail _
    · refine (Within.ofExcept _).bind fun _ => Within.bind (fun _ => .of_sessions rfl) fun _ => ?_
      split
      · exact recordEvidence_ticks.bind fun _ => .pure _
      · exact .pure _
  · exact .pure _

theorem refuseCommit_ticks (phase : PhaseRecord) (verdict : AuthorityVerdict) :
    Within Ticks (refuseCommit w r phase verdict) := by
  refine Within.bind (fun _ => .of_sessions rfl) fun _ => ?_
  refine Within.bind (writePhase_ticks _ _ _) fun _ => (revokeOutputs_ticks _ _ _).bind fun _ => ?_
  refine (revokeLease_ticks _ _).bind fun _ => ?_
  refine Within.bind (write_ticks _ fun _ => .next rfl rfl rfl) fun _ => ?_
  refine Within.get.bind fun rt => (Within.ofExcept _).bind fun session => ?_
  exact Within.bind (fun _ => .of_sessions rfl) fun _ =>
    (persistSession_ticks w _).bind fun _ => .pure _

/-- The copy a commit publishes is one of the live record. -/
theorem publish_ticks {report : ExecutionReport} {session : CompilerSession} {phase : PhaseRecord}
    (hl : rt.find r.session=some session) :
    Ticks rt (publish w r report session phase rt).2 := by
  rcases publish_sessions w r report session phase rt with h | ⟨commit,candidate,_,h⟩
  · exact .of_sessions h
  · have ht : Ticks rt (rt.modifySession r.session fun _ =>
        (session.committedPhase phase.id commit w.now).withCandidate candidate) := by
      refine modifySession_ticks fun s hs => ?_
      rw [hl] at hs
      cases hs
      exact (session.committedPhase_ticks _ _ _).trans (CompilerSession.withCandidate_ticks _ _)
    intro i s hs
    rw [h]
    exact ht i s hs

theorem commitReserved_ticks (report : ExecutionReport) :
    Within Ticks (commitReserved w r report) := by
  intro rt
  refine Within.get_at (Within.ofExcept_at fun (session,phase) hc => ?_)
  have ⟨hl,_⟩ := committable_ok r hc
  refine Within.bind_at (reprobe_ticks w r session phase rt) ?_
  intro _ t ht
  have hl : t.find r.session=some session := by rw [find_of_sessions (reprobe_sessions w r ht),hl]
  refine Within.bind_at (Std.Refl.refl t) ?_
  rintro _ _ ⟨⟩
  dsimp only
  split
  · exact publish_ticks w r hl
  · exact refuseCommit_ticks w r phase _ t

theorem registerOutput_ticks (session : CompilerSession) (phase : PhaseRecord)
    (output : OutputDescriptor) : Within Ticks (registerOutput r session phase output) := by
  refine (ticks_of_aside (registerArtifact_aside _)).bind fun reference => ?_
  exact Within.bind (write_ticks _ fun _ => .same rfl rfl rfl) fun _ _ => .of_sessions rfl

theorem addDiagnostics_ticks (set : DiagnosticSet) : Within Ticks (addDiagnostics set) := by
  intro rt
  unfold addDiagnostics
  split
  · exact Std.Refl.refl rt
  · exact .of_sessions rfl

theorem recordExecution_ticks (report : ExecutionReport) :
    Within Ticks (recordExecution w r report) := by
  refine Within.get.bind fun rt => (Within.ofExcept _).bind fun (session,phase) => ?_
  refine Within.bind (writePhase_ticks _ _ _) fun _ => (addDiagnostics_ticks _).bind fun stored => ?_
  refine Within.bind (writePhase_ticks _ _ _) fun _ => Within.bind (fun _ => .of_sessions rfl) fun _ => ?_
  split
  · refine Within.bind (writePhase_ticks _ _ _) fun _ => ?_
    refine (Within.forEach (registerOutput_ticks r session phase) _).bind fun _ => ?_
    refine Within.bind (fun _ => modifySession_ticks fun _ _ => .same rfl rfl rfl) fun _ => ?_
    exact Within.bind (write_ticks _ fun _ => .same rfl rfl rfl) fun _ => persistSession_ticks w _
  · exact Within.bind (write_ticks _ fun _ => .same rfl rfl rfl) fun _ => persistSession_ticks w _

theorem reportOutput_ticks (generation : CompilerPhaseGeneration) (invocation : Ref .invocation)
    (outputs : List OutputDescriptor) (process : ProcessOutcome) :
    Within Ticks (reportOutput w sid pid generation invocation outputs process) :=
  Within.get.bind fun _ => (Within.ofExcept _).bind fun _ => (Within.ofExcept _).bind fun _ =>
    (Within.ofExcept _).bind fun _ => (Within.ofExcept _).bind fun _ =>
      (recordExecution_ticks w _ _).bind fun _ => Within.get.bind fun _ => .pure _

theorem failSession_ticks (detail : Bytes) : Within Ticks (failSession w sid detail) :=
  Within.bind (write_ticks _ fun _ => .same rfl rfl rfl) fun _ => persistSession_ticks w _

theorem failIfActive_ticks (detail : Bytes) : Within Ticks (failIfActive w sid detail) := by
  refine Within.get.bind fun rt => ?_
  split
  · exact (failSession_ticks w sid detail).attempt.bind fun _ => .pure _
  · exact .pure _

theorem beginRound_ticks : Within Ticks (beginRound w sid) := by
  refine Within.get.bind fun rt => (Within.ofExcept _).bind fun _ => ?_
  refine Within.bind (write_ticks _ fun _ => .same rfl rfl rfl) fun _ => ?_
  refine Within.get.bind fun rt => (Within.ofExcept _).bind fun session => ?_
  split
  · exact .pure _
  · split
    · exact .pure _
    · exact (failSession_ticks w sid _).bind fun _ => .pure _

theorem beginRecovery_ticks : Within Ticks (beginRecovery sid) :=
  Within.get.bind fun _ => (Within.ofExcept _).bind fun _ =>
    Within.bind (fun _ => .of_sessions rfl) fun _ => .pure _

theorem endRecovery_ticks (plan : RecoveryPlan) : Within Ticks (endRecovery w sid plan) := by
  refine Within.get.bind fun rt => (Within.ofExcept _).bind fun _ =>
    (Within.forEach (fun o => ticks_of_aside (revalidateArtifact_aside w o)) _).bind fun _ => ?_
  refine Within.bind (write_ticks sid fun s => s.afterRecovery_ticks plan w.now) fun _ => ?_
  exact (persistSession_ticks w sid).bind fun _ => recordEvidence_ticks.bind fun _ => .pure _

section Fence

variable {session fenced : CompilerSession}

theorem fencePhases_same (reason : Bytes) (order : List CompilerPhaseId)
    (h : fencePhases w reason order session rt=(.ok fenced,t)) :
    ∃ phases,fenced={ session with phases } := by
  induction order generalizing session rt with
  | nil =>
    cases h
    exact ⟨_,rfl⟩
  | cons id rest ih =>
    have ⟨s,u,h₁,h₂⟩ := seq_eq_ok.1 h
    have ⟨phases,he⟩ := ih h₂
    unfold fencePhase at h₁
    cases hp : session.findPhase id with
    | none =>
      rw [hp] at h₁
      cases h₁
      exact ⟨phases,he⟩
    | some phase =>
      rw [hp] at h₁
      dsimp only at h₁
      split at h₁
      · cases h₁
        exact ⟨phases,he⟩
      · cases h₁
        exact ⟨phases,he⟩

end Fence

theorem beginShutdown_ticks : Within Ticks (beginShutdown w) := by
  refine Within.get.bind fun rt => ?_
  split
  · exact .pure _
  · refine Within.bind (fun _ => .of_sessions rfl) fun _ =>
      (Within.forEach (fun i => ?_) _).bind fun _ => .pure _
    intro rt
    refine Within.get_at ?_
    cases hs : rt.sessions[i]? with
    | none => exact Std.Refl.refl rt
    | some session =>
      by_cases hc : session.state=.retired ∨ session.state=.committed
      · simp only [hc,if_true]
        exact Std.Refl.refl rt
      · simp only [hc,if_false]
        refine Within.bind_at (ticks_of_aside (fenceAllInFlight_aside w _ session) rt) ?_
        intro fenced t ht
        refine modifySession_ticks fun s hl => ?_
        cases Aside.live ⟨i⟩ (fenceAllInFlight_aside w _ _) ht hs hl
        obtain ⟨phases,rfl⟩ := fencePhases_same w _ _ ht
        exact .same rfl rfl rfl

theorem endShutdown_ticks : Within Ticks (endShutdown w) := by
  refine Within.get.bind fun rt => ?_
  refine (Within.forEach (fun i => Within.get.bind fun rt => ?_) _).bind fun _ => ?_
  · split
    · exact .pure _
    · split
      · exact .pure _
      · refine Within.bind (write_ticks ⟨i⟩ fun s => ?_) fun _ => ?_
        · unfold stopped
          dsimp only
          split <;> exact .same rfl rfl rfl
        · exact (persistSession_ticks w ⟨i⟩).attempt.bind fun _ => .pure _
  · refine Within.bind (.modify fun rt => ?_) fun _ => recordEvidence_ticks.bind fun _ => .pure _
    split <;> exact .of_sessions rfl

theorem onTargets_ticks (f : TargetRegistry → Result (Ref .target × TargetRegistry)) :
    Within Ticks (onTargets f) := by
  intro rt
  apply Ticks.of_sessions
  unfold onTargets
  split <;> rfl

theorem onEnvironments_ticks
    (f : EnvironmentRegistry → Result (Ref .environment × EnvironmentRegistry)) :
    Within Ticks (onEnvironments f) := by
  intro rt
  apply Ticks.of_sessions
  unfold onEnvironments
  split <;> rfl

theorem onPolicies_ticks (f : PolicyRegistry → Result (Ref .policy × PolicyRegistry)) :
    Within Ticks (onPolicies f) := by
  intro rt
  apply Ticks.of_sessions
  unfold onPolicies
  split <;> rfl

theorem onSources_ticks (f : SourceRegistry → Result (Ref .source × SourceRegistry)) :
    Within Ticks (onSources f) := by
  intro rt
  apply Ticks.of_sessions
  unfold onSources
  split <;> rfl

theorem onToolchains_ticks {α : Type} (f : ToolchainRegistry → Result (α × ToolchainRegistry)) :
    Within Ticks (onToolchains f) := by
  intro rt
  apply Ticks.of_sessions
  unfold onToolchains
  split <;> rfl

theorem moveToolchain_ticks
    (f : ToolchainRegistry → Result (ToolchainMutation × ToolchainRegistry)) :
    Within Ticks (moveToolchain f) := by
  refine (onToolchains_ticks f).bind fun mutation => ?_
  split
  · exact recordEvidence_ticks.bind fun _ => .pure _
  · exact .pure _

theorem addSources_ticks (files : List (Result SourceUnit)) : Within Ticks (addSources files) := by
  induction files with
  | nil => exact .pure _
  | cons file rest ih => exact (onSources_ticks _).bind fun _ => ih.bind fun _ => .pure _

theorem requestedAttempt_ticks (request : CompileRequest) :
    Within Ticks (requestedAttempt request) := by
  unfold requestedAttempt
  split
  · exact .pure _
  · exact fun _ => .of_sessions rfl

theorem sessionParts_ticks (request : CompileRequest) : Within Ticks (sessionParts w request) := by
  refine Within.get.bind fun rt => ?_
  refine (Within.ofExcept _).bind fun _ => (Within.ofExcept _).bind fun _ => ?_
  refine (Within.ofExcept _).bind fun _ => (Within.ofExcept _).bind fun adapter => ?_
  refine (Within.ofExcept _).bind fun toolchain => (Within.ofExcept _).bind fun spec => ?_
  refine (onTargets_ticks _).bind fun target => (addSources_ticks _).bind fun plain => ?_
  refine (addSources_ticks _).bind fun inline_ => (Within.ofExcept _).bind fun _ => ?_
  refine (Within.ofExcept _).bind fun composed => (onEnvironments_ticks _).bind fun environment => ?_
  refine (onPolicies_ticks _).bind fun policy => (Within.ofExcept _).bind fun local_ => ?_
  refine Within.bind (fun _ => .of_sessions rfl) fun remap => (Within.ofExcept _).bind fun plan => ?_
  refine Within.bind (fun _ => .of_sessions rfl) fun id => ?_
  refine (requestedAttempt_ticks request).bind fun attempt => ?_
  exact (addSources_ticks _).bind fun staged => .pure _

/-- A session comes in beside the others. -/
theorem insert_ticks (rt : Runtime) (k : UInt64) (session : CompilerSession) :
    Ticks rt { rt with sessions := rt.sessions.insertIfNew k session } := by
  intro i s hs
  refine ⟨s,?_,Std.Refl.refl s⟩
  show (rt.sessions.insertIfNew k session)[i]?=some s
  rw [Std.ExtTreeMap.getElem?_insertIfNew,if_neg]
  · exact hs
  · rintro ⟨hk,hn⟩
    have hk := Std.LawfulEqCmp.eq_of_compare hk
    rw [Std.ExtTreeMap.mem_iff_isSome_getElem?,hk,hs] at hn
    exact hn rfl

theorem createSession_ticks (request : CompileRequest) : Within Ticks (createSession w request) := by
  refine (sessionParts_ticks w request).bind fun parts => ?_
  refine Within.get.bind fun rt => (persist_ticks w _).bind fun _ => ?_
  refine Within.bind (fun rt => insert_ticks rt _ _) fun _ => ?_
  exact recordEvidence_ticks.bind fun _ => .pure _

theorem adoptSession_ticks (session : CompilerSession) : Within Ticks (adoptSession w session) := by
  refine Within.get.bind fun rt => ?_
  refine (Within.ofExcept _).bind fun _ => (Within.ofExcept _).bind fun _ => ?_
  refine Within.bind (fun _ => .of_sessions rfl) fun _ => ?_
  refine (ticks_of_aside (fencePhases_aside w _ _ _)).bind fun fenced => ?_
  refine (persist_ticks w _).bind fun _ => ?_
  exact Within.bind (fun rt => insert_ticks rt _ _) fun _ => .pure _

theorem discoverToolchain_ticks (family : ToolchainFamily) :
    Within Ticks (discoverToolchain w family) :=
  Within.get.bind fun _ => (Within.ofExcept _).bind fun _ => (Within.ofExcept _).bind fun _ =>
    (onToolchains_ticks _).bind fun _ => recordEvidence_ticks.bind fun _ => .pure _

theorem refreshToolchain_ticks (id : ToolchainId) : Within Ticks (refreshToolchain w id) :=
  Within.get.bind fun _ => (Within.ofExcept _).bind fun _ => (Within.ofExcept _).bind fun _ =>
    (Within.ofExcept _).bind fun _ => moveToolchain_ticks _

end Operations

end Runtime

namespace PhaseRun

variable {w : World} {run : PhaseRun} {rt : Runtime}

/-- Past its reservation a run moves no counter. -/
theorem step_ticks (h : run.pc ≠ .reserve) : Runtime.Ticks rt (run.step w rt).2 := by
  unfold step
  cases hpc : run.pc with
  | reserve => exact absurd hpc h
  | prepare r =>
    have ht := Runtime.prepare_ticks w r rt
    dsimp only
    split
    · next he => rwa [he] at ht
    · next he => rwa [he] at ht
  | execute r =>
    dsimp only
    split
    · exact Std.Refl.refl rt
    · exact Runtime.noteProcess_ticks r _ rt
  | record r report =>
    dsimp only
    rw [after_snd]
    exact Runtime.recordExecution_ticks w r _ rt
  | inspect r report =>
    dsimp only
    split
    · split <;> exact Std.Refl.refl rt
    · exact Std.Refl.refl rt
  | reproduce r report =>
    dsimp only
    split <;> exact Std.Refl.refl rt
  | verify r report =>
    dsimp only
    split <;> exact Std.Refl.refl rt
  | refuse r status =>
    dsimp only
    rw [after_snd]
    exact Runtime.refuseDivergent_ticks w r status rt
  | validate r report =>
    dsimp only
    split <;> exact Std.Refl.refl rt
  | judge r report =>
    dsimp only
    split
    · exact Std.Refl.refl rt
    · rw [after_snd]
      exact Runtime.applyEvidence_ticks w r _ rt
  | commit r report =>
    dsimp only
    rw [after_snd]
    exact Runtime.commitReserved_ticks w r report rt

end PhaseRun

theorem SessionRun.step_ticks (w : World) (run : SessionRun) (calls : List Call) (rt : Runtime) :
    Runtime.Ticks rt (run.step w calls rt).2.2 := by
  unfold step
  cases run.pc with
  | limit =>
    dsimp only
    split <;> exact Std.Refl.refl rt
  | ceiling =>
    dsimp only
    split <;> exact Std.Refl.refl rt
  | round =>
    dsimp only
    split
    · exact Runtime.failSession_ticks w run.session _ rt
    · have h := Runtime.beginRound_ticks w run.session rt
      split
      · next he => rwa [he] at h
      · next he => rwa [he] at h
      · next he => rwa [he] at h
      · next he => rwa [he] at h
  | waiting children =>
    dsimp only
    split
    · exact Std.Refl.refl rt
    · split
      · exact Std.Refl.refl rt
      · split
        · exact Std.Refl.refl rt
        · exact Runtime.failIfActive_ticks w run.session _ rt
  | finish =>
    dsimp only
    split <;> exact Std.Refl.refl rt

/-- Only `retry_phase` counts before it is done. -/
theorem Command.start_ticks {w : World} {rt : Runtime} {c : Command}
    (h : ∀ sid pid,c ≠ .retryPhase sid pid) : Runtime.Ticks rt (c.start w rt).2 := by
  cases c with
  | createSession request => exact Runtime.createSession_ticks w request rt
  | adoptSession session => exact Runtime.adoptSession_ticks w session rt
  | runPhase => exact Std.Refl.refl rt
  | retryPhase session phase => exact absurd rfl (h session phase)
  | runSession => exact Std.Refl.refl rt
  | cancelPhase session phase reason => exact Runtime.cancelPhase_ticks w session phase reason rt
  | cancelSession session reason =>
    simp only [start]
    split <;> exact Std.Refl.refl rt
  | retireSession session reason => exact Runtime.retireSession_ticks w session reason rt
  | reportOutput session phase generation invocation outputs process =>
    exact Runtime.reportOutput_ticks w session phase generation invocation outputs process rt
  | commitPhase session phase generation invocation =>
    simp only [start]
    split <;> exact Std.Refl.refl rt
  | failPhase session phase generation failure status detail =>
    exact Runtime.failPhase_ticks w session phase generation failure status detail rt
  | applyRecovery session =>
    have ht := Runtime.beginRecovery_ticks session rt
    simp only [start]
    split
    · next he => rwa [he] at ht
    · next he => rwa [he] at ht
  | shutdown =>
    have ht := Runtime.beginShutdown_ticks w rt
    simp only [start]
    split
    · next he => rwa [he] at ht
    · next he => rwa [he] at ht
    · next he => rwa [he] at ht
  | reopen => exact Runtime.Ticks.of_sessions rfl
  | addAdapter adapter => exact Runtime.Ticks.of_sessions rfl
  | discoverToolchain family => exact Runtime.discoverToolchain_ticks w family rt
  | refreshToolchain id => exact Runtime.refreshToolchain_ticks w id rt
  | invalidateToolchain id reason => exact Runtime.moveToolchain_ticks _ rt
  | applyToolchainObservation observed => exact Runtime.moveToolchain_ticks _ rt
  | internTarget spec => exact Runtime.onTargets_ticks _ rt
  | reviseTarget id spec => exact Runtime.onTargets_ticks _ rt
  | internEnvironment spec => exact Runtime.onEnvironments_ticks _ rt
  | reviseEnvironment id spec => exact Runtime.onEnvironments_ticks _ rt
  | internPolicy spec => exact Runtime.onPolicies_ticks _ rt
  | revisePolicy id spec => exact Runtime.onPolicies_ticks _ rt
  | addSource => exact Runtime.onSources_ticks _ rt
  | revokeLease id reason => exact Runtime.revokeLease_ticks id reason rt
  | revokePhaseLeases phase reason => exact Runtime.Ticks.of_sessions rfl

namespace System

variable {sys : System} {e : Event}

/-- An event counts a retry, takes a reservation, or leaves the counters to tick. -/
theorem apply_ticks (he : e.inProcess) : Runtime.Ticks sys.rt (sys.apply e).rt ∨
    (∃ w sid pid,sys.up ∧ e=.call (.retryPhase sid pid) w) ∨
      ∃ w run,sys.Runs e w run ∧ run.pc=.reserve := by
  have facing {w : World} {rt' : Runtime} (ht : Runtime.Ticks (sys.rt.facing w) rt') :
      Runtime.Ticks sys.rt rt' := ht
  cases e with
  | restart options adapters w => exact he.elim
  | call command w =>
    by_cases hu : sys.up
    · by_cases hr : ∃ sid pid,command=.retryPhase sid pid
      · have ⟨sid,pid,hc⟩ := hr
        exact .inr (.inl ⟨w,sid,pid,hu,by rw [hc]⟩)
      · refine .inl ?_
        simp only [apply,hu,if_true]
        refine facing (Command.start_ticks fun sid pid hc => ?_)
        exact hr ⟨sid,pid,hc⟩
    · refine .inl ?_
      simp only [apply,hu]
      exact Std.Refl.refl sys.rt
  | resume index w =>
    by_cases hu : sys.up
    · cases hc : sys.calls[index]? with
      | none =>
        refine .inl ?_
        simp only [apply,hu,hc,if_true]
        exact Std.Refl.refl sys.rt
      | some call =>
        have hrt : (sys.apply (.resume index w)).rt=
            (sys.resume index w (sys.rt.facing w) call).rt := by
          simp only [apply,hu,hc,if_true]
        rw [hrt]
        cases call with
        | phase run =>
          by_cases hpc : run.pc=.reserve
          · exact .inr (.inr ⟨w,run,⟨hu,index,rfl,hc⟩,hpc⟩)
          · exact .inl (facing (PhaseRun.step_ticks hpc))
        | session run => exact .inl (facing (run.step_ticks w sys.calls (sys.rt.facing w)))
        | cancel session reason remaining =>
          cases remaining with
          | nil =>
            exact .inl (facing (Runtime.endCancelSession_ticks w session reason (sys.rt.facing w)))
          | cons phase rest =>
            exact .inl (facing (Runtime.cancelPhase_ticks w session phase reason (sys.rt.facing w)))
        | recovery session plan =>
          exact .inl (facing (Runtime.endRecovery_ticks w session plan (sys.rt.facing w)))
        | stopping => exact .inl (facing (Runtime.endShutdown_ticks w (sys.rt.facing w)))
        | ran | drove | created | recovered | ended => exact .inl (Std.Refl.refl sys.rt)
    · refine .inl ?_
      simp only [apply,hu]
      exact Std.Refl.refl sys.rt

end System

end CompilerFabric
