import CompilerFabric.Runtime.Evolution

namespace CompilerFabric

open Base Base.Action

namespace Runtime

open PhaseRecord (Allows)

variable (w : World) (r : Reservation) (sid : CompilerSessionId) (pid : CompilerPhaseId)

section Parts

variable {σ : UInt64 → SessionState → SessionState → Prop} {P : PhaseRecord → PhaseRecord → Prop}
  [∀ i,IsPreorder _ (σ i)] [IsPreorder _ P]

theorem persist_within (session : CompilerSession) : Within (Evolves σ P) (persist w session) := by
  intro rt
  unfold persist
  split
  · exact Std.Refl.refl rt
  · split
    · exact .aside rfl rfl rfl rfl rfl
    · exact Evolves.write rfl rfl rfl rfl (Nat.le_succ _) (.same rfl) (.same rfl rfl rfl) (Std.Refl.refl _)

theorem persistSession_within : Within (Evolves σ P) (persistSession w sid) := by
  intro rt
  unfold persistSession
  split
  · exact persist_within w _ rt
  · exact Std.Refl.refl rt

theorem recordEvidence_within : Within (Evolves σ P) recordEvidence := fun _ => .aside rfl rfl rfl rfl rfl

theorem nextAttempt_within : Within (Evolves σ P) nextAttempt :=
  fun rt => .write rfl rfl rfl rfl (Nat.le_refl _) (nextAttempt_mints rt) (.same rfl rfl rfl)
    (Std.Refl.refl _)

theorem nextInvocation_within : Within (Evolves σ P) nextInvocation :=
  fun rt => .write rfl rfl rfl rfl (Nat.le_refl _) (nextInvocation_mints rt) (.same rfl rfl rfl)
    (Std.Refl.refl _)

theorem nextSession_within : Within (Evolves σ P) nextSession := fun _ => .aside rfl rfl rfl rfl rfl

theorem nextPhases_within (nodes : List PhaseNode) : Within (Evolves σ P) (nextPhases nodes) :=
  fun rt => .write rfl rfl rfl rfl (Nat.le_refl _) (nextPhases_mints nodes rt) (.same rfl rfl rfl)
    (Std.Refl.refl _)

theorem revokeLease_within (id : LeaseId) (reason : Bytes) :
    Within (Evolves σ P) (revokeLease id reason) :=
  fun rt => .write rfl rfl rfl rfl (Nat.le_refl _) (.same rfl) (.same rfl rfl rfl)
    (rt.leases.revoke_shrinks id reason)

theorem appendProvenance_within (record : ProvenanceRecord) :
    Within (Evolves σ P) (appendProvenance w record) := fun _ => .aside rfl rfl rfl rfl rfl

theorem addDiagnostics_within (set : DiagnosticSet) :
    Within (Evolves σ P) (addDiagnostics set) := by
  intro rt
  unfold addDiagnostics
  split
  · exact Std.Refl.refl rt
  · exact .aside rfl rfl rfl rfl rfl

theorem revokeOutputs_within (phase : CompilerPhaseId) (generation : CompilerPhaseGeneration)
    (detail : Bytes) : Within (Evolves σ P) (revokeOutputs phase generation detail) :=
  fun rt => rt.artifacts_evolves (rt.artifacts.revokePhaseOutputs_quiet phase generation detail)

theorem setArtifactState_within (state : ArtifactState) (detail : Bytes)
    (reference : Ref .intermediate) :
    Within (Evolves σ P) (setArtifactState state detail reference) :=
  fun rt => rt.artifacts_evolves (rt.artifacts.setState_quiet reference.id state detail)

theorem revalidateArtifact_within (reference : Ref .intermediate) :
    Within (Evolves σ P) (revalidateArtifact w reference) := by
  intro rt
  have h := rt.artifacts.revalidate_quiet reference.id
    ((w.artifactFiles.lookup reference.id).getD .missing)
  unfold revalidateArtifact
  dsimp only
  split
  · next he =>
    rw [he] at h
    exact rt.artifacts_evolves h
  · next he =>
    rw [he] at h
    exact rt.artifacts_evolves h

theorem onTargets_within (f : TargetRegistry → Result (Ref .target × TargetRegistry)) :
    Within (Evolves σ P) (onTargets f) := by
  intro rt
  unfold onTargets
  split
  · exact Std.Refl.refl rt
  · exact .aside rfl rfl rfl rfl rfl

theorem onEnvironments_within
    (f : EnvironmentRegistry → Result (Ref .environment × EnvironmentRegistry)) :
    Within (Evolves σ P) (onEnvironments f) := by
  intro rt
  unfold onEnvironments
  split
  · exact Std.Refl.refl rt
  · exact .aside rfl rfl rfl rfl rfl

theorem onPolicies_within {f : PolicyRegistry → Result (Ref .policy × PolicyRegistry)}
    (hf : ∀ r reference r',f r=.ok (reference,r') → r.Advances r') :
    Within (Evolves σ P) (onPolicies f) := by
  intro rt
  unfold onPolicies
  split
  · exact Std.Refl.refl rt
  · next he =>
    exact .write rfl rfl rfl rfl (Nat.le_refl _) (.same rfl)
      ⟨hf _ _ _ he,List.prefix_rfl,Std.Refl.refl _⟩ (Std.Refl.refl _)

theorem onSources_within {f : SourceRegistry → Result (Ref .source × SourceRegistry)}
    (hf : ∀ r reference r',f r=.ok (reference,r') → r.Grows r') :
    Within (Evolves σ P) (onSources f) := by
  intro rt
  unfold onSources
  split
  · exact Std.Refl.refl rt
  · next he =>
    exact .write rfl rfl rfl rfl (Nat.le_refl _) (.same rfl)
      ⟨Std.Refl.refl _,List.prefix_rfl,hf _ _ _ he⟩ (Std.Refl.refl _)

theorem onToolchains_within {α : Type}
    (f : ToolchainRegistry → Result (α × ToolchainRegistry)) :
    Within (Evolves σ P) (onToolchains f) := by
  intro rt
  unfold onToolchains
  split
  · exact Std.Refl.refl rt
  · exact .aside rfl rfl rfl rfl rfl

theorem addSource_within (file : Result SourceUnit) : Within (Evolves σ P) (addSource file) := by
  refine onSources_within fun r reference r' h => ?_
  split at h
  · cases h
  · obtain ⟨unit,_,h⟩ := bind_eq_ok.1 h
    exact SourceRegistry.add_grows h

theorem addSources_within (files : List (Result SourceUnit)) :
    Within (Evolves σ P) (addSources files) := by
  induction files with
  | nil => exact .pure _
  | cons file rest ih =>
    exact (addSource_within file).bind fun _ => ih.bind fun _ => .pure _

theorem moveToolchain_within
    (f : ToolchainRegistry → Result (ToolchainMutation × ToolchainRegistry)) :
    Within (Evolves σ P) (moveToolchain f) := by
  refine (onToolchains_within f).bind fun mutation => ?_
  split
  · exact recordEvidence_within.bind fun _ => .pure _
  · exact .pure _

theorem modifySession_within {f : CompilerSession → CompilerSession}
    (h : ∀ s,CompilerSession.Evolves (σ sid.value) P s (f s)) :
    Within (Evolves σ P) (modify (·.modifySession sid f) : Op Unit) :=
  fun rt => rt.modifySession_evolves sid fun s _ => h s

theorem modifyPhase_within {f : PhaseRecord → PhaseRecord} (h : ∀ p,P p (f p)) :
    Within (Evolves σ P) (modify (·.modifyPhase sid pid f) : Op Unit) :=
  fun rt => rt.modifyPhase_evolves sid pid h

end Parts

section Operations

variable {σ : UInt64 → SessionState → SessionState → Prop} {P : PhaseRecord → PhaseRecord → Prop}
  [∀ i,IsPreorder _ (σ i)] [PhaseRecord.Allows P]

omit [PhaseRecord.Allows P] in
theorem touched_evolves {τ : SessionState → SessionState → Prop} [IsPreorder _ τ] [IsPreorder _ P]
    {s s' : CompilerSession} (now : UInt64) (h : CompilerSession.Evolves τ P s s') :
    CompilerSession.Evolves τ P s (s'.touched now) :=
  h.trans (.note rfl rfl rfl)

/-- `hP` is about the phase that could not be prepared. -/
theorem prepare_allows (hP : ∀ e,w.invalidInvocation=some e →
    ∀ p : PhaseRecord,P p { p with
      lastStatus := e.code
      failure := classifyStatus e.code
      lastDetail := e.message }) : Within (Evolves σ P) (prepare w r) := by
  refine Within.get.bind fun rt => (Within.ofExcept _).bind fun session =>
    (Within.ofExcept _).bind fun phase => (Within.ofExcept _).bind fun _ =>
      (Within.ofExcept _).bind fun _ => (Within.ofExcept _).bind fun _ => ?_
  split
  · exact .fail _
  · next he => exact Within.bind (modifyPhase_within _ _ (hP _ he)) fun _ => .fail _
  · refine Within.bind (modifySession_within _ fun s => touched_evolves w.now
      (s.modifyPhase_evolves _ fun p => Allows.calm
        (p.recordTransition_calm _ _ (by decide)))) fun _ => ?_
    exact persistSession_within w _

theorem prepare_within : Within (Evolves σ PhaseRecord.Quiet) (prepare w r) :=
  prepare_allows w r fun _ _ _ => .note rfl rfl

theorem noteProcess_within (report : ExecutionReport) :
    Within (Evolves σ P) (noteProcess r report) := by
  unfold noteProcess
  split
  · exact modifyPhase_within _ _ fun p => Allows.calm (.note rfl rfl rfl)
  · exact .pure _

theorem refuseDivergent_within (e : Status) :
    Within (Evolves σ P) (refuseDivergent w r e) := by
  refine Within.get.bind fun rt => ?_
  split
  · exact .pure _
  · refine Within.bind (modifyPhase_within _ _ fun p => Allows.calm
      (PhaseRecord.Quiet.calm (.record (by decide) (.note rfl rfl)) ?_)) fun _ => ?_
    · rw [PhaseRecord.recordTransition_failure]
      nofun
    refine (revokeOutputs_within _ _ _).bind fun _ => ?_
    refine Within.bind (modifySession_within _ fun s => .note rfl rfl rfl) fun _ => ?_
    exact persistSession_within w _

/-- `hP` is about a phase whose outputs are not accepted. -/
theorem applyEvidence_allows (evidence : ValidationEvidence)
    (hP : ¬evidence.accepted → ∀ p,P p (validationFailed evidence w.now p)) :
    Within (Evolves σ P) (applyEvidence w r evidence) := by
  refine Within.get.bind fun rt => (Within.ofExcept _).bind fun session =>
    (Within.ofExcept _).bind fun phase =>
      (Within.forEach (setArtifactState_within _ _) _).bind fun _ => ?_
  split
  · refine Within.bind (fun _ => .aside rfl rfl rfl rfl rfl) fun _ => ?_
    refine Within.bind (modifySession_within _ fun s => touched_evolves w.now
      (s.modifyPhase_evolves _ fun p => Allows.calm
        (p.recordTransition_calm _ _ (by decide)))) fun _ => ?_
    exact persistSession_within w _
  · next ha =>
    refine Within.bind (modifySession_within _ fun s => touched_evolves w.now
      (s.modifyPhase_evolves _ (hP ha))) fun _ => ?_
    exact persistSession_within w _

theorem applyEvidence_within (evidence : ValidationEvidence) :
    Within (Evolves σ PhaseRecord.Quiet) (applyEvidence w r evidence) :=
  applyEvidence_allows w r evidence fun _ p => p.validationFailed_quiet _ _

theorem reprobe_within (session : CompilerSession) (phase : PhaseRecord) :
    Within (Evolves σ P) (reprobe w r session phase) := by
  refine Within.get.bind fun rt => ?_
  split
  · split
    · refine Within.bind (fun _ => .aside rfl rfl rfl rfl rfl) fun _ => ?_
      refine Within.bind (modifyPhase_within _ _ fun p => Allows.calm (p.unprobed_calm _ _)) fun _ => ?_
      refine (revokeOutputs_within _ _ _).bind fun _ => ?_
      refine Within.bind (modifySession_within _ fun s => .note rfl rfl rfl) fun _ => ?_
      exact (persistSession_within w _).bind fun _ => .fail _
    · refine (Within.ofExcept _).bind fun _ => Within.bind (fun _ => .aside rfl rfl rfl rfl rfl) fun _ => ?_
      split
      · exact recordEvidence_within.bind fun _ => .pure _
      · exact .pure _
  · exact .pure _

theorem refuseCommit_within (phase : PhaseRecord) (verdict : AuthorityVerdict) :
    Within (Evolves σ P) (refuseCommit w r phase verdict) := by
  refine Within.bind (fun _ => .aside rfl rfl rfl rfl rfl) fun _ => ?_
  refine Within.bind (modifyPhase_within _ _ fun p => Allows.calm (p.commitRefused_calm _ _ _)) fun _ => ?_
  refine (revokeOutputs_within _ _ _).bind fun _ => (revokeLease_within _ _).bind fun _ => ?_
  refine Within.bind (modifySession_within _ fun s => .note rfl rfl rfl) fun _ => ?_
  refine Within.get.bind fun rt => (Within.ofExcept _).bind fun session => ?_
  refine (appendProvenance_within w _).bind fun _ => (persistSession_within w _).bind fun _ => ?_
  exact .pure _

theorem fencePhase_within (reason : Bytes) (session : CompilerSession) :
    Within (Evolves σ P) (fencePhase w reason session pid) := by
  unfold fencePhase
  split
  · exact .pure _
  · split
    · exact .pure _
    · exact (revokeOutputs_within _ _ _).bind fun _ =>
        (revokeLease_within _ _).bind fun _ => .pure _

theorem fencePhases_within (reason : Bytes) (order : List CompilerPhaseId)
    (session : CompilerSession) :
    Within (Evolves σ P) (fencePhases w reason order session) := by
  induction order generalizing session with
  | nil => exact .pure _
  | cons id rest ih => exact (fencePhase_within w id reason session).bind fun s => ih s

theorem cancelPhase_within (reason : Bytes) :
    Within (Evolves σ P) (cancelPhase w sid pid reason) := by
  refine Within.get.bind fun rt => (Within.ofExcept _).bind fun session =>
    (Within.ofExcept _).bind fun phase => (Within.ofExcept _).bind fun _ =>
      (revokeLease_within _ _).bind fun _ => (revokeOutputs_within _ _ _).bind fun _ => ?_
  refine Within.bind (modifySession_within _ fun s => touched_evolves w.now
    ((s.modifyPhase_evolves _ fun p => Allows.calm (p.cancelled_calm _ _)).trans (.note rfl rfl rfl))) fun _ => ?_
  exact (persistSession_within w _).bind fun _ => recordEvidence_within.bind fun _ => .pure _

theorem retirePhase_within (reason : Bytes) :
    Within (Evolves σ P) (retirePhase w sid reason pid) := by
  refine Within.get.bind fun rt => ?_
  split
  · exact .pure _
  · exact (revokeLease_within _ _).bind fun _ =>
      modifyPhase_within _ _ fun p => Allows.calm (p.recordTransition_calm _ _ (by decide))

theorem failPhase_within (generation : CompilerPhaseGeneration) (failure : FailureClass)
    (status : StatusCode) (detail : Bytes) : Within (Evolves σ PhaseRecord.Quiet)
      (failPhase w sid pid generation failure status detail) := by
  refine Within.get.bind fun rt => (Within.ofExcept _).bind fun session =>
    (Within.ofExcept _).bind fun phase => (Within.ofExcept _).bind fun _ =>
      (Within.ofExcept _).bind fun _ => ?_
  refine Within.bind (modifyPhase_within _ _ fun p => p.failedBy_quiet _ _ _ _) fun _ => ?_
  refine (revokeOutputs_within _ _ _).bind fun _ => (revokeLease_within _ _).bind fun _ => ?_
  refine Within.bind (modifySession_within _ fun s => .note rfl rfl rfl) fun _ => ?_
  exact (persistSession_within w _).bind fun _ => Within.get.bind fun _ => .pure _

theorem beginRetry_within : Within (Evolves σ P) (beginRetry sid pid) := by
  refine Within.get.bind fun rt => (Within.ofExcept _).bind fun session =>
    (Within.ofExcept _).bind fun phase => ?_
  dsimp only
  split
  · exact Within.bind (modifySession_within _ fun s => .note rfl rfl rfl) fun _ => .pure _
  · exact .pure _

theorem beginRecovery_within : Within (Evolves σ P) (beginRecovery sid) :=
  Within.get.bind fun _ => (Within.ofExcept _).bind fun _ =>
    Within.bind (fun _ => .aside rfl rfl rfl rfl rfl) fun _ => .pure _

theorem applyRevalidation_within (plan : RecoveryPlan) :
    Within (Evolves σ P) (applyRevalidation w plan) :=
  .forEach (revalidateArtifact_within w) _

theorem resetPersistence_within : Within (Evolves σ P) (resetPersistence w) := by
  refine .modify fun rt => ?_
  split
  · exact .aside rfl rfl rfl rfl rfl
  · exact Std.Refl.refl rt

theorem discoverToolchain_within (family : ToolchainFamily) :
    Within (Evolves σ P) (discoverToolchain w family) :=
  Within.get.bind fun _ => (Within.ofExcept _).bind fun _ => (Within.ofExcept _).bind fun _ =>
    (onToolchains_within _).bind fun _ => recordEvidence_within.bind fun _ => .pure _

theorem refreshToolchain_within (id : ToolchainId) :
    Within (Evolves σ P) (refreshToolchain w id) :=
  Within.get.bind fun _ => (Within.ofExcept _).bind fun _ => (Within.ofExcept _).bind fun _ =>
    (Within.ofExcept _).bind fun _ => moveToolchain_within _

end Operations

/-- No session record is touched. -/
structure Apart (rt rt' : Runtime) : Prop extends Ledger rt rt' where
  sessions : rt'.sessions=rt.sessions

instance : IsPreorder Runtime Apart where
  refl _ := ⟨Std.Refl.refl _,rfl⟩
  trans _ _ _ h h' := ⟨IsTrans.trans _ _ _ h.toLedger h'.toLedger,h'.sessions.trans h.sessions⟩

theorem Apart.note {rt rt' : Runtime} (hs : rt'.sessions=rt.sessions)
    (hf : rt'.persistFailures=rt.persistFailures) (hn : rt'.numbering=rt.numbering) :
    Apart rt rt' :=
  ⟨⟨Nat.le_of_eq hf.symm,.same hn⟩,hs⟩

/-- Nor is anything taken back or a lease granted. -/
structure Aside (rt rt' : Runtime) : Prop extends Apart rt rt',Retains rt rt' where
  leases : rt.leases.Shrinks rt'.leases

instance : IsPreorder Runtime Aside where
  refl _ := ⟨Std.Refl.refl _,Std.Refl.refl _,Std.Refl.refl _⟩
  trans _ _ _ h h' := ⟨IsTrans.trans _ _ _ h.toApart h'.toApart,
    IsTrans.trans _ _ _ h.toRetains h'.toRetains,IsTrans.trans _ _ _ h.leases h'.leases⟩

theorem find_of_sessions {rt rt' : Runtime} (h : rt'.sessions=rt.sessions)
    (id : CompilerSessionId) : rt'.find id=rt.find id := by rw [find,find,h]

/-- What every step but a reservation leaves alone beside the sessions. -/
structure Carries (rt rt' : Runtime) : Prop extends Ledger rt rt',Retains rt rt' where
  leases : rt.leases.Shrinks rt'.leases

instance : IsPreorder Runtime Carries where
  refl _ := ⟨Std.Refl.refl _,Std.Refl.refl _,Std.Refl.refl _⟩
  trans _ _ _ h h' := ⟨IsTrans.trans _ _ _ h.toLedger h'.toLedger,
    IsTrans.trans _ _ _ h.toRetains h'.toRetains,IsTrans.trans _ _ _ h.leases h'.leases⟩

theorem Carries.note {rt rt' : Runtime} (h : rt'.backdrop=rt.backdrop) : Carries rt rt' := by
  simp only [backdrop,Prod.mk.injEq] at h
  obtain ⟨hf,hn,hp,hd,hu,hl⟩ := h
  refine ⟨⟨Nat.le_of_eq hf.symm,.same hn⟩,.same hp hd hu,?_⟩
  rw [hl]
  exact Std.Refl.refl _

theorem Evolves.carries {σ : UInt64 → SessionState → SessionState → Prop}
    {P : PhaseRecord → PhaseRecord → Prop} {rt rt' : Runtime} (h : Evolves σ P rt rt') :
    Carries rt rt' :=
  ⟨⟨h.failures,h.mints⟩,h.toRetains,h.leases⟩

namespace Aside

theorem carries {rt rt' : Runtime} (h : Aside rt rt') : Carries rt rt' :=
  ⟨h.toLedger,h.toRetains,h.leases⟩

theorem write {rt rt' : Runtime} (hs : rt'.sessions=rt.sessions)
    (hf : rt.persistFailures ≤ rt'.persistFailures) (hm : Mints rt rt') (hk : Retains rt rt')
    (hl : rt.leases.Shrinks rt'.leases) : Aside rt rt' :=
  ⟨⟨⟨hf,hm⟩,hs⟩,hk,hl⟩

/-- A write elsewhere. -/
theorem note {rt rt' : Runtime} (hs : rt'.sessions=rt.sessions) (h : rt'.backdrop=rt.backdrop) :
    Aside rt rt' :=
  have hc := Carries.note h
  ⟨⟨hc.toLedger,hs⟩,hc.toRetains,hc.leases⟩

theorem find {rt rt' : Runtime} (h : Aside rt rt') (id : CompilerSessionId) :
    rt'.find id=rt.find id := find_of_sessions h.sessions id

theorem keeps {σ : UInt64 → SessionState → SessionState → Prop}
    {P : PhaseRecord → PhaseRecord → Prop} [∀ i,IsPreorder _ (σ i)] [IsPreorder _ P]
    {rt rt' : Runtime} (h : Aside rt rt') : Keeps σ P rt rt' :=
  ⟨h.toLedger,h.toRetains,fun _ s hs => ⟨s,h.sessions ▸ hs,Std.Refl.refl s⟩⟩

end Aside

section Aside

theorem persist_aside (session : CompilerSession) : Within Aside (persist w session) := by
  intro rt
  unfold persist
  split
  · exact Std.Refl.refl rt
  · split
    · exact .note rfl rfl
    · exact .write rfl (Nat.le_succ _) (.same rfl) (.same rfl rfl rfl) (Std.Refl.refl _)

theorem persistSession_aside : Within Aside (persistSession w sid) := by
  intro rt
  unfold persistSession
  split
  · exact persist_aside w _ rt
  · exact Std.Refl.refl rt

theorem citeValidation_aside (phase : CompilerPhaseId) : Within Aside (citeValidation phase) := by
  intro rt
  unfold citeValidation
  split
  · exact Std.Refl.refl rt
  · exact .note rfl rfl

theorem conclude_aside (session : CompilerSession) (phase : PhaseRecord) :
    Within Aside (conclude w session phase) := by
  refine Within.get.bind fun rt => ?_
  split
  · split
    · exact .pure _
    · exact Within.bind (fun rt => .write rfl (Nat.le_refl _) (nextFinal_mints rt)
        (.same rfl rfl rfl) (Std.Refl.refl _)) fun _ =>
        (citeValidation_aside _).bind fun _ => .pure _
  · exact .pure _

theorem modifyArtifact_aside (f : IntermediateArtifact → IntermediateArtifact)
    (reference : Ref .intermediate) : Within Aside (modifyArtifact f reference) := fun _ => .note rfl rfl

theorem promote_aside (reference : Ref .intermediate) : Within Aside (promote reference) :=
  fun _ => .note rfl rfl

theorem registerArtifact_aside (artifact : IntermediateArtifact) :
    Within Aside (registerArtifact artifact) := by
  intro rt
  unfold registerArtifact
  split
  · exact Std.Refl.refl rt
  · exact .note rfl rfl

theorem revokeLease_aside (id : LeaseId) (reason : Bytes) :
    Within Aside (revokeLease id reason) :=
  fun rt => .write rfl (Nat.le_refl _) (.same rfl) (.same rfl rfl rfl)
    (rt.leases.revoke_shrinks id reason)

theorem fencePhase_aside (reason : Bytes) (session : CompilerSession) :
    Within Aside (fencePhase w reason session pid) := by
  unfold fencePhase
  split
  · exact .pure _
  · split
    · exact .pure _
    · exact Within.bind (fun _ => .note rfl rfl) fun _ => (revokeLease_aside _ _).bind fun _ => .pure _

theorem fencePhases_aside (reason : Bytes) (order : List CompilerPhaseId)
    (session : CompilerSession) : Within Aside (fencePhases w reason order session) := by
  induction order generalizing session with
  | nil => exact .pure _
  | cons id rest ih => exact (fencePhase_aside w id reason session).bind fun s => ih s

theorem fenceAllInFlight_aside (reason : String) (session : CompilerSession) :
    Within Aside (fenceAllInFlight w reason session) := fencePhases_aside w _ _ _

theorem revalidateArtifact_aside (reference : Ref .intermediate) :
    Within Aside (revalidateArtifact w reference) := by
  intro rt
  unfold revalidateArtifact
  dsimp only
  split <;> exact .note rfl rfl

end Aside

end Runtime

end CompilerFabric
