import CompilerFabric.Runtime.Estate

namespace CompilerFabric

open Base Base.Action

namespace PhaseRecord

def holding (p : PhaseRecord) : PhaseHolding := ⟨p.id,p.lease.id,p.outputs.map (·.id)⟩

theorem holding_of_binding {p p' : PhaseRecord} (hb : p'.binding=p.binding)
    (ho : p'.outputs=p.outputs) : p'.holding=p.holding := by
  have hi : p'.id=p.id := congrArg (·.1) hb
  have hl : p'.lease=p.lease := congrArg (·.2.2.2.1) hb
  rw [holding,holding,hi,hl,ho]

theorem Quiet.holding {p p' : PhaseRecord} (h : Quiet p p') : p'.holding=p.holding :=
  holding_of_binding h.binding (congrArg (·.1) h.production)

theorem committed_holding (p : PhaseRecord) (commit : CommitId) (now : UInt64) :
    (p.committed commit now).holding=p.holding := by
  refine holding_of_binding (Runtime.committed_stays p commit now).binding ?_
  unfold committed
  have ⟨_,_,he,_⟩ := recordTransition_frame
    ({ p with commit,committedAtNanos := now }.modifyLastAttempt fun a => { a with
      terminalState := .committed }) .committed
      (ascii "authority revalidated and outputs committed") now
  rw [he]
  rfl

end PhaseRecord

namespace CompilerSession

def holding (s : CompilerSession) : Holding where
  id := s.id
  intermediates := s.intermediates.map (·.id)
  phases := fun i => s.phases[i]?.map (·.holding)

theorem modifyPhase_holding (s : CompilerSession) (pid : CompilerPhaseId)
    {f : PhaseRecord → PhaseRecord} (h : ∀ p,(f p).holding=p.holding) :
    (s.modifyPhase pid f).holding=s.holding := by
  have hp : (fun i : UInt64 => (s.modifyPhase pid f).phases[i]?.map (·.holding))=
      fun i => s.phases[i]?.map (·.holding) := by
    funext i
    simp only [modifyPhase,Std.ExtTreeMap.getElem?_modify]
    split
    · next hi =>
      have hi := Std.LawfulEqCmp.eq_of_compare hi
      subst hi
      rw [Option.map_map]
      exact congrArg (Option.map · s.phases[pid.value]?) (funext h)
    · rfl
  rw [holding,hp]
  rfl

theorem resumed_holding (s : CompilerSession) (now : UInt64) :
    (s.resumed now).holding=s.holding := by
  unfold resumed
  generalize s.plan.order=order
  induction order generalizing s with
  | nil => rfl
  | cons id rest ih =>
    rw [List.foldl_cons,ih]
    exact s.modifyPhase_holding id fun p => (p.resumePhase_quiet now).holding

theorem afterRecovery_holding (s : CompilerSession) (plan : RecoveryPlan) (now : UInt64) :
    (s.afterRecovery plan now).holding=s.holding := by
  show (((s.planned plan).reopened plan.requiresOperator now)).holding=s.holding
  unfold reopened
  split_ifs
  · exact ((s.planned plan).resumed_holding now).trans rfl
  · rfl
  · rfl

theorem committedPhase_holding (s : CompilerSession) (pid : CompilerPhaseId) (commit : CommitId)
    (now : UInt64) : (s.committedPhase pid commit now).holding=s.holding := by
  have h := s.modifyPhase_holding pid fun p => p.committed_holding commit now
  unfold committedPhase
  dsimp only
  split <;> exact h

theorem withCandidate_holding (s : CompilerSession) (candidate : Option FinalCandidate) :
    (s.withCandidate candidate).holding=s.holding := by
  cases candidate with
  | none => rfl
  | some candidate =>
    unfold withCandidate
    dsimp only
    split <;> rfl

end CompilerSession

namespace ArtifactRegistry

theorem modify_entries (r : ArtifactRegistry) (id : IntermediateArtifactId)
    (f : IntermediateArtifact → IntermediateArtifact) (i : UInt64) :
    (r.modify id f).entries[i]?=r.entries[i]? ∨ id=⟨i⟩ := by
  simp only [modify,Std.ExtTreeMap.getElem?_modify]
  split
  · next hi => exact .inr (StrongId.ext (Std.LawfulEqCmp.eq_of_compare hi))
  · exact .inl rfl

/-- Only what is indexed under the phase is revoked. -/
theorem revokePhaseOutputs_entries (r : ArtifactRegistry) (phase : CompilerPhaseId)
    (generation : CompilerPhaseGeneration) (detail : Bytes) (i : UInt64) :
    (r.revokePhaseOutputs phase generation detail).entries[i]?=r.entries[i]? ∨
      ⟨i⟩ ∈ r.byPhase.getD phase.value [] := by
  unfold revokePhaseOutputs
  generalize r.byPhase.getD phase.value []=ids
  induction ids generalizing r with
  | nil => exact .inl rfl
  | cons id ids ih =>
    rw [List.foldl_cons]
    rcases ih (r.modify id (revoked generation detail)) with h | h
    · rcases r.modify_entries id (revoked generation detail) i with h' | h'
      · exact .inl (h.trans h')
      · exact .inr (h' ▸ List.mem_cons_self)
    · exact .inr (List.mem_cons_of_mem _ h)

end ArtifactRegistry

namespace Runtime

def estate (rt : Runtime) : Estate where
  sessions := fun i => rt.sessions[i]?.map (·.holding)
  leases := fun i => rt.leases.entries[i]?.map (·.session.id)
  index := fun i => rt.artifacts.byPhase.getD i []
  sessionIds := rt.sessionIds
  phaseIds := rt.phaseIds
  leaseIds := rt.leases.allocator
  artifactIds := rt.artifacts.allocator

/-- The holdings stay, and only what the session holds is written. -/
structure Tends (who : CompilerSessionId) (rt rt' : Runtime) : Prop where
  estate : rt'.estate=rt.estate
  sessions : ∀ i,i ≠ who.value → rt'.sessions[i]?=rt.sessions[i]?
  leases : ∀ i,rt'.leases.entries[i]?=rt.leases.entries[i]? ∨ rt.estate.Cites who i
  artifacts : ∀ i,rt'.artifacts.entries[i]?=rt.artifacts.entries[i]? ∨ rt.estate.Reaches who ⟨i⟩

instance {who : CompilerSessionId} : IsPreorder Runtime (Tends who) where
  refl _ := ⟨rfl,fun _ _ => rfl,fun _ => .inl rfl,fun _ => .inl rfl⟩
  trans := by
    intro rt rt' rt'' h h'
    refine ⟨h'.estate.trans h.estate,fun i hi => (h'.sessions i hi).trans (h.sessions i hi),?_,?_⟩
    · intro i
      rcases h'.leases i with hl | hl
      · rw [hl]
        exact h.leases i
      · exact .inr (h.estate ▸ hl)
    · intro i
      rcases h'.artifacts i with ha | ha
      · rw [ha]
        exact h.artifacts i
      · exact .inr (h.estate ▸ ha)

/-- What the sessions share, and what they are registered in. -/
def shared (rt : Runtime) := (rt.sessions,rt.leases,rt.artifacts,rt.sessionIds,rt.phaseIds)

variable {who : CompilerSessionId} {rt rt' : Runtime}

/-- A write elsewhere. -/
theorem Tends.aside (h : rt'.shared=rt.shared) : Tends who rt rt' := by
  simp only [shared,Prod.mk.injEq] at h
  have ⟨hs,hl,ha,hi,hp⟩ := h
  refine ⟨?_,fun _ _ => by rw [hs],fun _ => .inl (by rw [hl]),fun _ => .inl (by rw [ha])⟩
  rw [Runtime.estate,Runtime.estate,hs,hl,ha,hi,hp]

theorem modifySession_tends {f : CompilerSession → CompilerSession}
    (h : ∀ s,rt.find who=some s → (f s).holding=s.holding) :
    Tends who rt (rt.modifySession who f) := by
  have hs : (fun i : UInt64 => (rt.modifySession who f).sessions[i]?.map (·.holding))=
      fun i => rt.sessions[i]?.map (·.holding) := by
    funext i
    simp only [modifySession,Std.ExtTreeMap.getElem?_modify]
    split
    · next hi =>
      have hi := Std.LawfulEqCmp.eq_of_compare hi
      subst hi
      cases hf : rt.sessions[who.value]? with
      | none => rfl
      | some s => exact congrArg some (h s hf)
    · rfl
  refine ⟨?_,?_,fun _ => .inl rfl,fun _ => .inl rfl⟩
  · rw [estate,hs]
    rfl
  · intro i hi
    simp only [modifySession,Std.ExtTreeMap.getElem?_modify]
    rw [if_neg]
    intro hc
    exact hi (Std.LawfulEqCmp.eq_of_compare hc).symm

theorem modifyPhase_tends (pid : CompilerPhaseId) {f : PhaseRecord → PhaseRecord}
    (h : ∀ p,(f p).holding=p.holding) : Tends who rt (rt.modifyPhase who pid f) :=
  modifySession_tends fun s _ => s.modifyPhase_holding pid h

theorem revokedLease_session (reason : Bytes) (l : Lease) :
    (LeaseTable.revokedLease reason l).session=l.session := by
  unfold LeaseTable.revokedLease
  split <;> rfl

theorem revoke_estate (rt : Runtime) (id : LeaseId) (reason : Bytes) :
    { rt with leases := rt.leases.revoke id reason }.estate=rt.estate := by
  have hl : (fun i : UInt64 => (rt.leases.revoke id reason).entries[i]?.map (·.session.id))=
      fun i => rt.leases.entries[i]?.map (·.session.id) := by
    funext i
    simp only [LeaseTable.revoke,Std.ExtTreeMap.getElem?_modify]
    split
    · next hi =>
      have hi := Std.LawfulEqCmp.eq_of_compare hi
      subst hi
      simp [Function.comp_def,revokedLease_session]
    · rfl
  rw [estate,hl]
  rfl

theorem revokePhase_estate (rt : Runtime) (phase : CompilerPhaseId) (reason : Bytes) :
    { rt with leases := rt.leases.revokePhase phase reason }.estate=rt.estate := by
  have hl : (fun i : UInt64 =>
      (rt.leases.revokePhase phase reason).entries[i]?.map (·.session.id))=
      fun i => rt.leases.entries[i]?.map (·.session.id) := by
    funext i
    simp only [LeaseTable.revokePhase,Std.ExtTreeMap.getElem?_map,Option.map_map]
    congr 1
    funext l
    simp only [Function.comp_def]
    split
    · rw [revokedLease_session]
    · rfl
  rw [estate,hl]
  rfl

theorem artifacts_tends {artifacts : ArtifactRegistry} (hb : artifacts.byPhase=rt.artifacts.byPhase)
    (ha : artifacts.allocator=rt.artifacts.allocator)
    (he : ∀ i : UInt64,artifacts.entries[i]?=rt.artifacts.entries[i]? ∨
      rt.estate.Reaches who ⟨i⟩) : Tends who rt { rt with artifacts } := by
  refine ⟨?_,fun _ _ => rfl,fun _ => .inl rfl,he⟩
  rw [estate,hb,ha]
  rfl

theorem has_of_find {pid : CompilerPhaseId} {s : CompilerSession} {p : PhaseRecord}
    (hs : rt.find who=some s) (hp : s.findPhase pid=some p) : rt.estate.Has who p.holding := by
  have hs : rt.sessions[who.value]?=some s := hs
  have hp : s.phases[pid.value]?=some p := hp
  refine ⟨s.holding,pid.value,?_,?_⟩
  · simp only [estate,hs,Option.map_some]
  · simp only [CompilerSession.holding,hp,Option.map_some]

/-- An operation that has read the record `p` of a phase of the session. -/
abbrev TendsFrom {α : Type} (who : CompilerSessionId) (p : PhaseRecord) (x : Op α) : Prop :=
  WithinFrom (fun rt => rt.estate.Has who p.holding) (Tends who) x

namespace TendsFrom

variable {p : PhaseRecord} {α β : Type}

theorem bind {x : Op α} {f : α → Op β} (hx : TendsFrom who p x)
    (hf : ∀ a,TendsFrom who p (f a)) : TendsFrom who p (x >>= f) :=
  WithinFrom.bind (fun _ _ h hs => h.estate ▸ hs) hx hf

theorem within {x : Op α} (h : Within (Tends who) x) : TendsFrom who p x := .of_within h

theorem forEach {f : β → Op Unit} {xs : List β} (h : ∀ x ∈ xs,TendsFrom who p (f x)) :
    TendsFrom who p (Action.forEach f xs) :=
  WithinFrom.forEach (fun _ _ h hs => h.estate ▸ hs) h

theorem revokeLease (reason : Bytes) : TendsFrom who p (revokeLease p.lease.id reason) := by
  intro rt hp
  refine ⟨rt.revoke_estate _ _,fun _ _ => rfl,?_,fun _ => .inl rfl⟩
  intro i
  show (rt.leases.revoke p.lease.id reason).entries[i]?=_ ∨ _
  simp only [LeaseTable.revoke,Std.ExtTreeMap.getElem?_modify]
  split
  · next hi => exact .inr ⟨p.holding,hp,Std.LawfulEqCmp.eq_of_compare hi⟩
  · exact .inl rfl

theorem revokeOutputs (generation : CompilerPhaseGeneration) (detail : Bytes) :
    TendsFrom who p (revokeOutputs p.id generation detail) := by
  intro rt hp
  have hq := rt.artifacts.revokePhaseOutputs_quiet p.id generation detail
  refine artifacts_tends hq.byPhase hq.allocator fun i => ?_
  refine (rt.artifacts.revokePhaseOutputs_entries p.id generation detail i).imp_right ?_
  intro hi
  exact ⟨p.holding,hp,.inr hi⟩

/-- One of the outputs is written. -/
theorem output {o : Ref .intermediate} (ho : o ∈ p.outputs) {x : Op Unit}
    {g : ArtifactRegistry → ArtifactRegistry} (hx : ∀ rt,(x rt).2={ rt with artifacts := g rt.artifacts })
    (hg : ∀ r,g r=r ∨ ∃ f,g r=r.modify o.id f) : TendsFrom who p x := by
  intro rt hp
  rw [hx]
  rcases hg rt.artifacts with h | ⟨f,h⟩
  · rw [h]
    exact Std.Refl.refl rt
  · rw [h]
    refine artifacts_tends rfl rfl fun i => ?_
    refine (rt.artifacts.modify_entries o.id f i).imp_right ?_
    intro hi
    exact ⟨p.holding,hp,.inl (List.mem_map.2 ⟨o,ho,hi⟩)⟩

theorem modifyArtifact (f : IntermediateArtifact → IntermediateArtifact) {o : Ref .intermediate}
    (ho : o ∈ p.outputs) : TendsFrom who p (modifyArtifact f o) :=
  output ho (fun _ => rfl) fun _ => .inr ⟨f,rfl⟩

theorem setArtifactState (state : ArtifactState) (detail : Bytes) {o : Ref .intermediate}
    (ho : o ∈ p.outputs) : TendsFrom who p (setArtifactState state detail o) := by
  refine output ho (g := fun r => (r.setState o.id state detail).1) (fun _ => rfl) fun r => ?_
  unfold ArtifactRegistry.setState
  split
  · exact .inl rfl
  · exact .inr ⟨_,rfl⟩

theorem promote {o : Ref .intermediate} (ho : o ∈ p.outputs) : TendsFrom who p (promote o) := by
  refine output ho (g := fun r => (r.setAuthority o.id .authoritative).1) (fun _ => rfl) fun r => ?_
  unfold ArtifactRegistry.setAuthority
  split
  · exact .inl rfl
  · split
    · exact .inl rfl
    · exact .inr ⟨_,rfl⟩

end TendsFrom

section Operations

variable (w : World) (r : Reservation) (sid : CompilerSessionId) (pid : CompilerPhaseId)

theorem persist_tends (session : CompilerSession) : Within (Tends who) (persist w session) := by
  intro rt
  unfold persist
  split
  · exact Std.Refl.refl rt
  · split <;> exact .aside rfl

theorem persistSession_tends : Within (Tends who) (persistSession w sid) := by
  intro rt
  unfold persistSession
  split
  · exact persist_tends w _ rt
  · exact Std.Refl.refl rt

theorem recordEvidence_tends : Within (Tends who) recordEvidence := fun _ => .aside rfl

theorem write_tends {f : CompilerSession → CompilerSession} (h : ∀ s,(f s).holding=s.holding) :
    Within (Tends sid) (modify (·.modifySession sid f) : Op Unit) :=
  fun _ => modifySession_tends fun s _ => h s

theorem writePhase_tends {f : PhaseRecord → PhaseRecord} (h : ∀ p,(f p).holding=p.holding) :
    Within (Tends sid) (modify (·.modifyPhase sid pid f) : Op Unit) :=
  fun _ => modifyPhase_tends pid h

theorem beginRetry_tends : Within (Tends sid) (beginRetry sid pid) := by
  refine Within.get.bind fun rt => (Within.ofExcept _).bind fun session =>
    (Within.ofExcept _).bind fun phase => ?_
  dsimp only
  split
  · exact Within.bind (write_tends sid fun _ => rfl) fun _ => .pure _
  · exact .pure _

theorem prepare_tends : Within (Tends r.session) (prepare w r) := by
  refine Within.get.bind fun rt => (Within.ofExcept _).bind fun session =>
    (Within.ofExcept _).bind fun phase => (Within.ofExcept _).bind fun _ =>
      (Within.ofExcept _).bind fun _ => (Within.ofExcept _).bind fun _ => ?_
  split
  · exact .fail _
  · exact Within.bind (writePhase_tends _ _ fun _ => rfl) fun _ => .fail _
  · refine Within.bind (write_tends _ fun s => ?_) fun _ => persistSession_tends w _
    exact s.modifyPhase_holding _ fun p =>
      (p.recordTransition_quiet _ _ (by decide) (by decide)).holding

theorem noteProcess_tends (report : ExecutionReport) :
    Within (Tends r.session) (noteProcess r report) := by
  unfold noteProcess
  split
  · exact writePhase_tends _ _ fun _ => rfl
  · exact .pure _

theorem refuseDivergent_tends (e : Status) : Within (Tends r.session) (refuseDivergent w r e) := by
  intro rt
  refine Within.get_at ?_
  cases hf : (rt.find r.session).bind (·.findPhase r.phase) with
  | none => exact Std.Refl.refl rt
  | some phase =>
    have ⟨s,hs,hp⟩ := Option.bind_eq_some_iff.1 hf
    refine TendsFrom.bind (.within (writePhase_tends _ _ fun p => ?_)) (fun _ => ?_) rt
      (has_of_find hs hp)
    · exact PhaseRecord.Quiet.holding (.record (by decide) (.note rfl rfl))
    · refine (TendsFrom.revokeOutputs _ _).bind fun _ => ?_
      refine TendsFrom.bind (.within (write_tends _ fun _ => rfl)) fun _ => ?_
      exact .within (persistSession_tends w _)

theorem applyEvidence_tends (evidence : ValidationEvidence) :
    Within (Tends r.session) (applyEvidence w r evidence) := by
  intro rt
  refine Within.get_at (Within.ofExcept_at fun session hs => Within.ofExcept_at fun phase hp => ?_)
  have hh := has_of_find ((requireSession_ok _).1 hs) ((requirePhase_ok _).1 hp)
  refine TendsFrom.bind (.forEach fun o ho => .setArtifactState _ _ ho) (fun _ => .within ?_) rt hh
  split
  · refine Within.bind (fun _ => .aside rfl) fun _ => ?_
    refine Within.bind (write_tends _ fun s => ?_) fun _ => persistSession_tends w _
    exact s.modifyPhase_holding _ fun p =>
      (p.recordTransition_quiet _ _ (by decide) (by decide)).holding
  · refine Within.bind (write_tends _ fun s => ?_) fun _ => persistSession_tends w _
    exact s.modifyPhase_holding _ fun p => (p.validationFailed_quiet _ _).holding

theorem cancelPhase_tends (reason : Bytes) : Within (Tends sid) (cancelPhase w sid pid reason) := by
  intro rt
  refine Within.get_at (Within.ofExcept_at fun session hs => Within.ofExcept_at fun phase hp =>
    Within.ofExcept_at fun _ _ => ?_)
  have hh := has_of_find ((requireSession_ok _).1 hs) ((requirePhase_ok _).1 hp)
  refine TendsFrom.bind (.revokeLease _) (fun _ => ?_) rt hh
  refine (TendsFrom.revokeOutputs _ _).bind fun _ => .within ?_
  refine Within.bind (write_tends _ fun s => ?_) fun _ => ?_
  · exact s.modifyPhase_holding _ fun p => (p.cancelled_quiet _ _).holding
  · exact (persistSession_tends w _).bind fun _ => recordEvidence_tends.bind fun _ => .pure _

theorem endCancelSession_tends (reason : Bytes) :
    Within (Tends sid) (endCancelSession w sid reason) :=
  Within.get.bind fun _ => (Within.ofExcept _).bind fun _ =>
    Within.bind (write_tends _ fun _ => rfl) fun _ => persistSession_tends w _

theorem retirePhase_tends (reason : Bytes) : Within (Tends sid) (retirePhase w sid reason pid) := by
  intro rt
  refine Within.get_at ?_
  cases hf : (rt.find sid).bind (·.findPhase pid) with
  | none => exact Std.Refl.refl rt
  | some phase =>
    have ⟨s,hs,hp⟩ := Option.bind_eq_some_iff.1 hf
    refine TendsFrom.bind (.revokeLease _) (fun _ => .within ?_) rt (has_of_find hs hp)
    exact writePhase_tends _ _ fun p =>
      (p.recordTransition_quiet _ _ (by decide) (by decide)).holding

theorem retireSession_tends (reason : Bytes) : Within (Tends sid) (retireSession w sid reason) := by
  refine Within.get.bind fun rt => (Within.ofExcept _).bind fun session => ?_
  refine (Within.forEach (fun id => retirePhase_tends w sid id reason) _).bind fun _ => ?_
  exact Within.bind (write_tends _ fun _ => rfl) fun _ => persistSession_tends w _

theorem failPhase_tends (generation : CompilerPhaseGeneration) (failure : FailureClass)
    (status : StatusCode) (detail : Bytes) :
    Within (Tends sid) (failPhase w sid pid generation failure status detail) := by
  intro rt
  refine Within.get_at (Within.ofExcept_at fun session hs => Within.ofExcept_at fun phase hp =>
    Within.ofExcept_at fun _ _ => Within.ofExcept_at fun _ _ => ?_)
  have hh := has_of_find ((requireSession_ok _).1 hs) ((requirePhase_ok _).1 hp)
  refine TendsFrom.bind (.within (writePhase_tends _ _ fun p => ?_)) (fun _ => ?_) rt hh
  · exact (p.failedBy_quiet _ _ _ _).holding
  · refine (TendsFrom.revokeOutputs _ _).bind fun _ => (TendsFrom.revokeLease _).bind fun _ => ?_
    refine TendsFrom.bind (.within (write_tends _ fun _ => rfl)) fun _ => .within ?_
    exact (persistSession_tends w _).bind fun _ => Within.get.bind fun _ => .pure _

theorem reprobe_tends (session : CompilerSession) (phase : PhaseRecord) :
    TendsFrom r.session phase (reprobe w r session phase) := by
  refine TendsFrom.bind (.within .get) fun rt => ?_
  split
  · split
    · refine TendsFrom.bind (.within fun _ => .aside rfl) fun _ => ?_
      refine TendsFrom.bind (.within (writePhase_tends _ _ fun p => (p.unprobed_quiet _ _).holding))
        fun _ => ?_
      refine (TendsFrom.revokeOutputs _ _).bind fun _ => .within ?_
      refine Within.bind (write_tends _ fun _ => rfl) fun _ => ?_
      exact (persistSession_tends w _).bind fun _ => .fail _
    · refine .within ((Within.ofExcept _).bind fun _ => Within.bind (fun _ => .aside rfl) fun _ => ?_)
      split
      · exact recordEvidence_tends.bind fun _ => .pure _
      · exact .pure _
  · exact .within (.pure _)

theorem refuseCommit_tends (phase : PhaseRecord) (verdict : AuthorityVerdict) :
    TendsFrom r.session phase (refuseCommit w r phase verdict) := by
  refine TendsFrom.bind (.within fun _ => .aside rfl) fun _ => ?_
  refine TendsFrom.bind (.within (writePhase_tends _ _ fun p => (p.commitRefused_quiet _ _ _).holding))
    fun _ => ?_
  refine (TendsFrom.revokeOutputs _ _).bind fun _ => (TendsFrom.revokeLease _).bind fun _ =>
    .within ?_
  refine Within.bind (write_tends _ fun _ => rfl) fun _ => ?_
  refine Within.get.bind fun rt => (Within.ofExcept _).bind fun session => ?_
  exact Within.bind (fun _ => .aside rfl) fun _ => (persistSession_tends w _).bind fun _ => .pure _

theorem conclude_tends (session : CompilerSession) (phase : PhaseRecord) :
    Within (Tends who) (conclude w session phase) := by
  refine Within.get.bind fun rt => ?_
  split
  · split
    · exact .pure _
    · refine Within.bind (fun _ => .aside rfl) fun _ => Within.bind (fun rt => ?_) fun _ => .pure _
      unfold citeValidation
      split
      · exact Std.Refl.refl rt
      · exact .aside rfl
  · exact .pure _

theorem stage_tends (session : CompilerSession) (phase : PhaseRecord) :
    TendsFrom who phase (stage w r session phase) := by
  refine TendsFrom.bind (.within fun _ => .aside rfl) fun provenance => ?_
  refine TendsFrom.bind (.forEach fun o ho => .modifyArtifact _ ho) fun _ => ?_
  refine TendsFrom.bind (.within fun _ => .aside rfl) fun commit => ?_
  refine TendsFrom.bind (.forEach fun o ho => .promote ho) fun _ => .within ?_
  exact (conclude_tends w _ _).bind fun _ => .pure _

theorem release_tends (phase : PhaseRecord) (provenance : ProvenanceId) :
    TendsFrom who phase (release phase provenance) := by
  refine TendsFrom.bind (.within .get) fun rt => ?_
  refine TendsFrom.bind (.forEach fun o ho => .modifyArtifact _ ho) fun _ => ?_
  exact (TendsFrom.revokeLease _).bind fun _ => .within fun _ => .aside rfl

theorem publish_tends {report : ExecutionReport} {session : CompilerSession} {phase : PhaseRecord}
    (hl : rt.find r.session=some session) (hp : session.findPhase r.phase=some phase) :
    Tends r.session rt (publish w r report session phase rt).2 := by
  have hh := has_of_find hl hp
  have hstage := stage_tends w r session phase rt hh
  refine Within.bind_at hstage ?_
  rintro ⟨provenance,committed,concluded⟩ t ht
  have hlive : t.find r.session=some session := by
    have h := stage_aside w r session phase rt
    rw [ht] at h
    rw [h.find,hl]
  rw [ht] at hstage
  have hh : t.estate.Has r.session phase.holding := hstage.estate ▸ hh
  have ⟨commit,candidate,_,he⟩ := stage_ok w r ht
  have hpersist : Tends r.session t (persist w committed t).2 := persist_tends w committed t
  refine Within.bind_at hpersist ?_
  intro _ u hu
  have hlive : u.find r.session=some session := by
    have h := persist_aside w committed t
    rw [hu] at h
    rw [h.find,hlive]
  rw [hu] at hpersist
  have hh : u.estate.Has r.session phase.holding := hpersist.estate ▸ hh
  -- the copy that replaces the live record holds what it held
  have hw : Tends r.session u (u.modifySession r.session fun _ => committed) := by
    refine modifySession_tends fun s hs => ?_
    rw [hlive] at hs
    cases hs
    rw [he,CompilerSession.withCandidate_holding,CompilerSession.committedPhase_holding]
  refine Within.bind_at hw ?_
  rintro _ _ ⟨⟩
  refine TendsFrom.bind (release_tends phase provenance) (fun _ => .within (.pure _)) _ ?_
  show (u.modifySession r.session fun _ => committed).estate.Has _ _
  rw [hw.estate]
  exact hh

theorem commitReserved_tends (report : ExecutionReport) :
    Within (Tends r.session) (commitReserved w r report) := by
  intro rt
  refine Within.get_at (Within.ofExcept_at fun (session,phase) hc => ?_)
  have ⟨hl,hp,_⟩ := committable_ok r hc
  have hreprobe := reprobe_tends w r session phase rt (has_of_find hl hp)
  refine Within.bind_at hreprobe ?_
  intro _ t ht
  have hl : t.find r.session=some session := by rw [find_of_sessions (reprobe_sessions w r ht),hl]
  refine Within.bind_at (Std.Refl.refl t) ?_
  rintro _ _ ⟨⟩
  dsimp only
  split
  · exact publish_tends w r hl hp
  · exact refuseCommit_tends w r phase _ t (has_of_find hl hp)

end Operations

end Runtime

end CompilerFabric
