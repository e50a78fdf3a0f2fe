import CompilerFabric.Law.Boundary
import CompilerFabric.Law.Sources

namespace CompilerFabric

open Base Base.Action

namespace ArtifactRegistry

/-- The artifact is registered and authoritative. -/
def upholds (r : ArtifactRegistry) (id : IntermediateArtifactId) : Bool :=
  (r.find id).any (·.authority=.authoritative)

/-- What re-hashing the artifacts of a list does: nothing to the others, and no artifact becomes
authoritative. -/
structure Rehashed (ids : List IntermediateArtifactId) (r r' : ArtifactRegistry) : Prop where
  other : ∀ id,id ∉ ids → r'.find id=r.find id
  gains : ∀ id,r.upholds id=false → r'.upholds id=false

theorem find_modify (r : ArtifactRegistry) (id id' : IntermediateArtifactId)
    (f : IntermediateArtifact → IntermediateArtifact) :
    (r.modify id f).find id'=if id=id' then (r.find id').map f else r.find id' := by
  simp only [find,modify,Std.ExtTreeMap.getElem?_modify]
  by_cases hi : id=id'
  · subst hi
    simp
  · rw [if_neg hi,if_neg]
    intro hc
    exact hi (StrongId.ext (Std.LawfulEqCmp.eq_of_compare hc))

theorem modify_rehashed (r : ArtifactRegistry) (id : IntermediateArtifactId)
    {f : IntermediateArtifact → IntermediateArtifact}
    (hf : ∀ a,(f a).authority=.authoritative → a.authority=.authoritative) :
    Rehashed [id] r (r.modify id f) where
  other id' h := by
    rw [find_modify,if_neg]
    rintro rfl
    exact h List.mem_cons_self
  gains id' h := by
    rw [upholds,find_modify]
    split_ifs
    · unfold upholds at h
      cases ha : r.find id' with
      | none => rfl
      | some a =>
        rw [ha] at h
        simp only [Option.any_some,decide_eq_false_iff_not,Option.map_some] at h ⊢
        exact fun hn => h (hf a hn)
    · exact h

theorem revalidate_rehashed (r : ArtifactRegistry) (id : IntermediateArtifactId)
    (probe : FileProbe) : Rehashed [id] r (r.revalidate id probe).1 := by
  have same : Rehashed [id] r r := ⟨fun _ _ => rfl,fun _ h => h⟩
  have gone {state : ArtifactState} {detail : String} :
      Rehashed [id] r (r.modify id (withdrawn state detail)) :=
    r.modify_rehashed id fun a h => by cases h
  unfold revalidate
  cases r.find id with
  | none => exact same
  | some a =>
    dsimp only
    split_ifs
    · exact same
    · cases probe with
      | missing => exact gone
      | unreadable => exact gone
      | content observed =>
        dsimp only
        split_ifs
        · exact gone
        · exact r.modify_rehashed id fun _ h => h

theorem Rehashed.append {ids ids' : List IntermediateArtifactId} {r r' r'' : ArtifactRegistry}
    (h : Rehashed ids r r') (h' : Rehashed ids' r' r'') : Rehashed (ids++ids') r r'' where
  other id hid := by
    rw [List.mem_append,not_or] at hid
    rw [h'.other id hid.2,h.other id hid.1]
  gains id hid := h'.gains id (h.gains id hid)

end ArtifactRegistry

/-- Where a reopened session takes a phase up. -/
def PhaseState.resumed (s : PhaseState) : PhaseState :=
  if s.retainsCommitAuthority then .ready else if s=.fenced then .retired else s

theorem PhaseState.resumed_resumed (s : PhaseState) : s.resumed.resumed=s.resumed := by
  cases s <;> decide

/-- A record that only a reopening has written to. -/
structure PhaseRecord.Resumes (p p' : PhaseRecord) : Prop where
  rest : ∃ history failure lastStatus lastDetail,
    p'={ p with state := p'.state,history,failure,lastStatus,lastDetail }
  ended : p.state ∈ [PhaseState.committed,.failed,.cancelled,.retired] → p'=p
  committed : p'.state=.committed → p.state=.committed

theorem PhaseRecord.Resumes.refl (p : PhaseRecord) : p.Resumes p :=
  ⟨⟨p.history,p.failure,p.lastStatus,p.lastDetail,rfl⟩,fun _ => rfl,fun h => h⟩

theorem PhaseRecord.Resumes.trans {p q r : PhaseRecord} (h : p.Resumes q) (h' : q.Resumes r) :
    p.Resumes r := by
  refine ⟨?_,?_,fun hc => h.committed (h'.committed hc)⟩
  · obtain ⟨_,_,_,_,hq⟩ := h.rest
    obtain ⟨history,failure,lastStatus,lastDetail,hr⟩ := h'.rest
    refine ⟨history,failure,lastStatus,lastDetail,?_⟩
    rw [hq] at hr
    exact hr
  · intro he
    have hq := h.ended he
    subst hq
    exact h'.ended he

/-- A reopening keeps the records of committed phases, and commits none. -/
theorem PhaseRecord.Resumes.kept {found found' : Option PhaseRecord}
    (h : Option.Rel PhaseRecord.Resumes found found') {p : PhaseRecord} (hc : p.state=.committed) :
    found'=some p ↔ found=some p := by
  cases h with
  | none => rfl
  | @some q q' h =>
    constructor
    · intro he
      cases he
      rw [h.ended (by rw [h.committed hc]; decide)]
    · intro he
      cases he
      rw [h.ended (by rw [hc]; decide)]

namespace CompilerSession

theorem resumePhase_resumes (p : PhaseRecord) (now : UInt64) :
    p.Resumes (resumePhase p now) ∧ (resumePhase p now).state=p.state.resumed := by
  unfold resumePhase
  by_cases he : p.state ∈ [PhaseState.committed,.failed,.cancelled,.retired]
  · rw [if_pos he]
    refine ⟨.refl p,?_⟩
    revert he
    cases p.state <;> decide
  · rw [if_neg he]
    dsimp only
    have note (q : PhaseRecord) {history : List PhaseTransition} {state : PhaseState}
        (hq : q={ p with history,state }) (hs : q.state=p.state.resumed) :
        p.Resumes { q with failure := .none,lastStatus := .ok,lastDetail := [] } ∧
          q.state=p.state.resumed := by
      subst hq
      refine ⟨⟨⟨_,_,_,_,rfl⟩,fun h => absurd h he,?_⟩,hs⟩
      intro hc
      have hc' : p.state.resumed=.committed := hs.symm.trans hc
      revert hc'
      cases p.state <;> decide
    split_ifs with hr hf
    · obtain ⟨history,state,hq,_⟩ := p.recordTransition_frame .ready
        (ascii "recovery resumed from the last authoritative boundary") now
      refine note _ hq ?_
      rw [PhaseRecord.recordTransition_state]
      revert hr
      cases p.state <;> decide
    · obtain ⟨history,state,hq,_⟩ := p.recordTransition_frame .retired
        (ascii "recovery retired a fenced phase generation") now
      refine note _ hq ?_
      rw [PhaseRecord.recordTransition_state]
      revert hf
      cases p.state <;> decide
    · refine @note p p.history p.state rfl ?_
      simp [PhaseState.resumed,hr,hf]

/-- The phases of the plan are all taken up, the others stay as they are. -/
theorem findPhase_resumed (s : CompilerSession) (now : UInt64) (pid : CompilerPhaseId)
    {p : PhaseRecord} (hp : s.findPhase pid=some p) : ∃ p',(s.resumed now).findPhase pid=some p' ∧
      p.Resumes p' ∧ (pid ∈ s.plan.order → p'.state=p.state.resumed) := by
  unfold resumed
  generalize s.plan.order=order
  suffices h : ∀ q,s.findPhase pid=some q → p.Resumes q → ∃ p',(order.foldl (fun s id =>
      s.modifyPhase id (resumePhase · now)) s).findPhase pid=some p' ∧ p.Resumes p' ∧
      (q.state=p.state.resumed ∨ q.state=p.state ∧ pid ∈ order → p'.state=p.state.resumed) by
    obtain ⟨p',hp',hr,hs⟩ := h p hp (.refl p)
    exact ⟨p',hp',hr,fun ho => hs (.inr ⟨rfl,ho⟩)⟩
  clear hp
  induction order generalizing s with
  | nil =>
    intro q hq hr
    refine ⟨q,hq,hr,?_⟩
    rintro (h | ⟨_,h⟩)
    · exact h
    · cases h
  | cons id rest ih =>
    intro q hq hr
    rw [List.foldl_cons]
    have hm := s.findPhase_modifyPhase id pid (resumePhase · now)
    by_cases hid : id=pid
    · rw [if_pos hid,hq,Option.map_some] at hm
      obtain ⟨hres,hstate⟩ := resumePhase_resumes q now
      obtain ⟨p',hp',hr',hs⟩ := ih _ _ hm (hr.trans hres)
      refine ⟨p',hp',hr',fun h => hs (.inl ?_)⟩
      rw [hstate]
      rcases h with h | ⟨h,_⟩
      · rw [h,PhaseState.resumed_resumed]
      · rw [h]
    · rw [if_neg hid] at hm
      obtain ⟨p',hp',hr',hs⟩ := ih _ q (hm.trans hq) hr
      refine ⟨p',hp',hr',?_⟩
      rintro (h | ⟨h,ho⟩)
      · exact hs (.inl h)
      · exact hs (.inr ⟨h,(List.mem_cons.1 ho).resolve_left (Ne.symm hid)⟩)

theorem findPhase_afterRecovery (s : CompilerSession) (plan : RecoveryPlan) (now : UInt64)
    (pid : CompilerPhaseId) :
    Option.Rel PhaseRecord.Resumes (s.findPhase pid) ((s.afterRecovery plan now).findPhase pid) := by
  have same : Option.Rel PhaseRecord.Resumes (s.findPhase pid) (s.findPhase pid) := by
    cases s.findPhase pid with
    | none => exact .none
    | some p => exact .some (.refl p)
  show Option.Rel _ _ (((s.planned plan).reopened plan.requiresOperator now).findPhase pid)
  unfold reopened
  split_ifs
  · show Option.Rel _ _ (((s.planned plan).resumed now).findPhase pid)
    have hp : (s.planned plan).findPhase pid=s.findPhase pid := rfl
    cases hs : s.findPhase pid with
    | none =>
      have h := ((s.planned plan).resumed_evolves (σ := Eq) (P := PhaseRecord.Quiet) now).phases pid.value
      unfold findPhase at hp hs ⊢
      rw [hp,hs] at h
      cases hn : ((s.planned plan).resumed now).phases[pid.value]? with
      | none => exact .none
      | some q =>
        rw [hn] at h
        cases h
    | some p =>
      obtain ⟨p',hp',hr,_⟩ := (s.planned plan).findPhase_resumed now pid (hp.trans hs)
      rw [hp']
      exact .some hr
  · exact same
  · exact same

end CompilerSession

namespace RecoveryPlan

/-- The artifacts that the plan has re-hashed. -/
def rehashes (plan : RecoveryPlan) : List IntermediateArtifactId :=
  ((plan.steps.filter (·.requiresIntermediateRevalidation)).flatMap
    (·.affectedArtifacts)).map (·.id)

end RecoveryPlan

section Planner

variable {plan : PhasePlan} {phases : List PhaseRecord} {artifacts : ArtifactRegistry}
  {authority : AuthorityObservation} {afterRestart : Bool}

/-- The steps of a plan: one that re-hashes the suspects, and one that restarts a phase. -/
theorem mem_planRecovery_steps {step : RecoveryStep}
    (h : step ∈ (planRecovery plan phases artifacts authority afterRestart).steps) :
    step.affectedArtifacts=suspectArtifacts phases artifacts ∧
        step.outcome=.revalidateIntermediate ∨
      ∃ phase,recoveryRestartPhase plan phases authority=some phase ∧
        step=(restartStep phases afterRestart phase).1 := by
  unfold planRecovery at h
  cases hr : recoveryRestartPhase plan phases authority with
  | none =>
    rw [hr] at h
    dsimp only at h
    split_ifs at h
    · cases h
    · rw [List.mem_singleton.1 h]
      exact .inl ⟨rfl,rfl⟩
  | some phase =>
    rw [hr] at h
    dsimp only at h
    rcases List.mem_append.1 h with h | h
    · split_ifs at h
      · cases h
      · rw [List.mem_singleton.1 h]
        exact .inl ⟨rfl,rfl⟩
    · exact .inr ⟨phase,rfl,List.mem_singleton.1 h⟩

theorem restartStep_plain (phase : CompilerPhaseId) :
    (restartStep phases afterRestart phase).1.requiresIntermediateRevalidation=false := by
  unfold restartStep
  split
  · split_ifs <;> rfl
  · rfl

/-- Only the outputs of committed phases that lost their authority are re-hashed. -/
theorem rehashes_planRecovery {id : IntermediateArtifactId}
    (h : id ∈ (planRecovery plan phases artifacts authority afterRestart).rehashes) :
    id ∈ (suspectArtifacts phases artifacts).map (·.id) := by
  obtain ⟨reference,hr,rfl⟩ := List.mem_map.1 h
  obtain ⟨step,hstep,hr⟩ := List.mem_flatMap.1 hr
  obtain ⟨hstep,hq⟩ := List.mem_filter.1 hstep
  rcases mem_planRecovery_steps hstep with ⟨ha,_⟩ | ⟨phase,_,rfl⟩
  · rw [← ha]
    exact List.mem_map_of_mem hr
  · rw [restartStep_plain] at hq
    cases hq

end Planner

namespace Runtime

variable {rt t : Runtime} {w : World} {sid : CompilerSessionId} {plan : RecoveryPlan}

theorem applyRevalidation_eq (w : World) (plan : RecoveryPlan) (rt : Runtime) : ∃ artifacts,
    (applyRevalidation w plan rt).2={ rt with artifacts } ∧
      rt.artifacts.Rehashed plan.rehashes artifacts := by
  unfold applyRevalidation RecoveryPlan.rehashes
  generalize (plan.steps.filter (·.requiresIntermediateRevalidation)).flatMap
    (·.affectedArtifacts)=references
  induction references generalizing rt with
  | nil => exact ⟨rt.artifacts,rfl,fun _ _ => rfl,fun _ h => h⟩
  | cons reference rest ih =>
    have hstep := rt.artifacts.revalidate_rehashed reference.id
      ((w.artifactFiles.lookup reference.id).getD .missing)
    have hone : (revalidateArtifact w reference rt).2=
        { rt with artifacts := (rt.artifacts.revalidate reference.id
          ((w.artifactFiles.lookup reference.id).getD .missing)).1 } := by
      unfold revalidateArtifact
      dsimp only
      split <;> next h => rw [h]
    rw [forEach,List.map_cons]
    cases hr : revalidateArtifact w reference rt with
    | mk result u =>
      rw [hr] at hone
      cases result with
      | error e =>
        rw [bind_error hr]
        refine ⟨_,hone,?_,hstep.gains⟩
        intro id hid
        exact hstep.other id fun h => hid (List.mem_cons.2 (.inl (List.mem_singleton.1 h)))
      | ok _ =>
        rw [bind_ok hr]
        dsimp only at hone
        subst hone
        obtain ⟨artifacts,he,hrest⟩ := ih { rt with artifacts := (rt.artifacts.revalidate
          reference.id ((w.artifactFiles.lookup reference.id).getD .missing)).1 }
        exact ⟨artifacts,he,hstep.append hrest⟩

/-- What a successful `apply_recovery` leaves: the plan on the session, artifacts re-hashed, and
the registries as they were. -/
structure Recovered (rt : Runtime) (plan : RecoveryPlan) (sid : CompilerSessionId) (now : UInt64)
    (session : CompilerSession) (t : Runtime) : Prop where
  found : rt.find sid=some session
  left : t.find sid=some (session.afterRecovery plan now)
  artifacts : rt.artifacts.Rehashed plan.rehashes t.artifacts
  toolchains : t.toolchains=rt.toolchains
  targets : t.targets=rt.targets
  environments : t.environments=rt.environments
  policies : t.policies=rt.policies
  sources : t.sources=rt.sources
  shuttingDown : t.shuttingDown=rt.shuttingDown

theorem persistSession_eq (w : World) (sid : CompilerSessionId) (rt : Runtime) :
    ∃ persistence persistFailures,
      (persistSession w sid rt).2={ rt with persistence,persistFailures } := by
  unfold persistSession
  cases rt.find sid with
  | none => exact ⟨rt.persistence,rt.persistFailures,rfl⟩
  | some session =>
    dsimp only
    cases hp : rt.persistence with
    | none =>
      have he : persist w session rt=(.ok (),rt) := by rw [persist,hp]
      exact ⟨rt.persistence,rt.persistFailures,by rw [he]⟩
    | some store =>
      rw [persist,hp]
      dsimp only
      cases store.append .sessionStateChanged (rt.encodeSessionBundle session) w.wall with
      | mk r store' =>
        cases r with
        | ok _ => exact ⟨some store',rt.persistFailures,rfl⟩
        | error e => exact ⟨some store',rt.persistFailures+1,rfl⟩

theorem endRecovery_ok (h : endRecovery w sid plan rt=(.ok (),t)) :
    ∃ session,Recovered rt plan sid w.now session t := by
  have ⟨_,_,hg,h⟩ := seq_eq_ok.1 h
  cases hg
  have ⟨session,_,hs,h⟩ := seq_eq_ok.1 h
  have ⟨hreq,he⟩ := ofExcept_eq_ok.1 hs
  cases he
  have ⟨_,t₁,hv,h⟩ := seq_eq_ok.1 h
  obtain ⟨artifacts,hv',hre⟩ := applyRevalidation_eq w plan rt
  rw [hv] at hv'
  dsimp only at hv'
  subst hv'
  have ⟨_,_,hm,h⟩ := seq_eq_ok.1 h
  cases hm
  have ⟨_,t₂,hp,h⟩ := seq_eq_ok.1 h
  obtain ⟨persistence,persistFailures,hp'⟩ := persistSession_eq w sid
    (modifySession { rt with artifacts } sid fun s => s.afterRecovery plan w.now)
  rw [hp] at hp'
  dsimp only at hp'
  subst hp'
  have ⟨_,_,hr,h⟩ := seq_eq_ok.1 h
  cases hr
  cases h
  have hfound : rt.sessions[sid.value]?=some session := (requireSession_ok sid).1 hreq
  refine ⟨session,hfound,?_,hre,rfl,rfl,rfl,rfl,rfl,rfl⟩
  show (rt.sessions.modify sid.value _)[sid.value]?=_
  rw [Std.ExtTreeMap.getElem?_modify_self,hfound]
  rfl

/-- The planner has nothing re-hashed that is authoritative. -/
theorem not_upholds_rehashes (h : rt.planRecoveryOf sid=.ok plan) {id : IntermediateArtifactId}
    (hid : id ∈ plan.rehashes) : rt.artifacts.upholds id=false := by
  unfold planRecoveryOf at h
  obtain ⟨session,_,h⟩ := do_eq_ok.1 h
  cases h
  have hs : id ∈ (suspectArtifacts (orderedPhaseRecords session) rt.artifacts).map (·.id) :=
    rehashes_planRecovery hid
  obtain ⟨reference,hr,rfl⟩ := List.mem_map.1 hs
  obtain ⟨phase,_,hr⟩ := List.mem_flatMap.1 hr
  have hn := (List.mem_filter.1 hr).2
  rw [Bool.not_eq_true'] at hn
  exact hn

theorem beginRecovery_ok (h : beginRecovery sid rt=(.ok plan,t)) :
    rt.planRecoveryOf sid=.ok plan ∧ t={ rt with recoveryIds := rt.recoveryIds.next.2 } := by
  have ⟨_,_,hg,h⟩ := seq_eq_ok.1 h
  cases hg
  have ⟨_,_,hx,h⟩ := seq_eq_ok.1 h
  have ⟨hp,he⟩ := ofExcept_eq_ok.1 hx
  cases he
  have ⟨_,_,hm,h⟩ := seq_eq_ok.1 h
  cases hm
  cases h
  exact ⟨hp,rfl⟩

/-- The two locked parts of a successful `apply_recovery`. -/
theorem recovered_of_ok {rt₁ : Runtime} (hb : beginRecovery sid rt=(.ok plan,rt₁))
    (he : endRecovery w sid plan rt₁=(.ok (),t)) :
    rt.planRecoveryOf sid=.ok plan ∧ ∃ session,Recovered rt plan sid w.now session t := by
  obtain ⟨hplan,rfl⟩ := beginRecovery_ok hb
  obtain ⟨session,hr⟩ := endRecovery_ok he
  exact ⟨hplan,session,hr.found,hr.left,hr.artifacts,hr.toolchains,hr.targets,hr.environments,
    hr.policies,hr.sources,hr.shuttingDown⟩

/-- What is authoritative is left as it was. -/
theorem Recovered.upheld {session : CompilerSession} {now : UInt64}
    (h : Recovered rt plan sid now session t) (hplan : rt.planRecoveryOf sid=.ok plan)
    {id : IntermediateArtifactId} (hu : rt.artifacts.upholds id=true) :
    t.artifacts.find id=rt.artifacts.find id := by
  refine h.artifacts.other id fun hid => ?_
  rw [not_upholds_rehashes hplan hid] at hu
  cases hu

/-- Every authoritative output of a committed phase of the session is on disk as it was
recorded. -/
def OutputsIntact (rt : Runtime) (fs : FileSystem) (sid : CompilerSessionId) : Prop :=
  ∀ session pid phase output artifact,rt.find sid=some session →
    session.findPhase pid=some phase → phase.state=.committed → output ∈ phase.outputs →
    rt.artifacts.find output.id=some artifact → artifact.authority=.authoritative →
    (fs artifact.path).any fun contents => Digest.of contents=artifact.content

/-- The world in which `revalidate` finds these files. -/
def showing (rt : Runtime) (fs : FileSystem) (w : World) : World :=
  { w with artifactFiles := rt.artifacts.entries.toList.map fun entry =>
      (⟨entry.1⟩,match fs entry.2.path with
        | none => .missing
        | some contents => .content (Digest.of contents)) }

/-- `apply_recovery` looks at no file of an authoritative output. -/
theorem recovery_outputs_iff {fs : FileSystem} {rt₁ : Runtime}
    (hb : beginRecovery sid rt=(.ok plan,rt₁))
    (he : endRecovery (rt₁.showing fs w) sid plan rt₁=(.ok (),t)) :
    t.OutputsIntact fs sid ↔ rt.OutputsIntact fs sid := by
  obtain ⟨hplan,session,hr⟩ := recovered_of_ok hb he
  have hp (pid : CompilerPhaseId) {phase : PhaseRecord} (hc : phase.state=.committed) :
      (session.afterRecovery plan w.now).findPhase pid=some phase ↔
        session.findPhase pid=some phase :=
    PhaseRecord.Resumes.kept (session.findPhase_afterRecovery plan w.now pid) hc
  constructor
  · intro ht s pid phase output artifact hs hphase hc ho ha hauth
    rw [hr.found] at hs
    cases hs
    have hup : rt.artifacts.upholds output.id=true := by simp [ArtifactRegistry.upholds,ha,hauth]
    exact ht _ pid phase output artifact hr.left ((hp pid hc).2 hphase) hc ho
      ((hr.upheld hplan hup).trans ha) hauth
  · intro ht s pid phase output artifact hs hphase hc ho ha hauth
    rw [hr.left] at hs
    cases hs
    have hup : rt.artifacts.upholds output.id=true := by
      by_contra hn
      have hno := hr.artifacts.gains output.id (Bool.eq_false_of_not_eq_true hn)
      simp [ArtifactRegistry.upholds,ha,hauth] at hno
    exact ht session pid phase output artifact hr.found ((hp pid hc).1 hphase) hc ho
      ((hr.upheld hplan hup).symm.trans ha) hauth

end Runtime

namespace Sample

/-- The file a phase leaves. -/
def object : OutputDescriptor :=
  { logicalName := ascii "image",format := .elf,present := true
    path := ascii "main.o",content := Digest.of (ascii "object") }

def compiling : World := { staged with execution := .ok { report with outputs := [object] } }

/-- The first of two phases, after so many of its locked parts. -/
def compiled (parts : Nat) : Runtime := ((ready.apply (.call (.createSession request) compiling)).run
  (.call (.runPhase ⟨1⟩ ⟨1⟩) compiling::List.replicate parts (.resume 2 compiling))).rt

/-- A process started on the bundle that another one kept of its session. -/
def revived (kept : Runtime) : Runtime := (Runtime.recoverSession world
  (kept.bundleOf ((kept.find ⟨1⟩).getD {}))
  { options := durable,adapters := [adapter],epoch := 2,persistence := some {} }).2

def onDisk : FileSystem := fun path => if path=ascii "main.o" then some (ascii "object") else none

/-- `apply_recovery` on the first session. -/
def mended (fs : FileSystem) (rt : Runtime) : Option (RecoveryPlan × Runtime) :=
  match Runtime.beginRecovery ⟨1⟩ rt with
  | (.ok plan,rt₁) => match Runtime.endRecovery (rt₁.showing fs world) ⟨1⟩ plan rt₁ with
    | (.ok _,t) => some (plan,t)
    | _ => none
  | _ => none

end Sample

namespace Runtime

theorem of_mended {fs : FileSystem} {rt t : Runtime} {plan : RecoveryPlan}
    (h : Sample.mended fs rt=some (plan,t)) : ∃ rt₁,beginRecovery ⟨1⟩ rt=(.ok plan,rt₁) ∧
      endRecovery (rt₁.showing fs Sample.world) ⟨1⟩ plan rt₁=(.ok (),t) := by
  unfold Sample.mended at h
  split at h
  · next plan' rt₁ hb =>
    split at h
    · next he =>
      cases h
      exact ⟨rt₁,hb,he⟩
    · cases h
  · cases h

/-- What a recovery keeps of a committed phase without its object file, and with all of them. -/
theorem mended_revived : ((Sample.mended (fun _ => none) (Sample.revived (Sample.compiled 9))).any
      fun (_,t) => (t.find ⟨1⟩).any fun s => (s.findPhase ⟨1⟩).any fun p =>
        decide (p.state=.committed) &&
          p.outputs.any fun o => (t.artifacts.find o.id).any (·.authority=.authoritative))=true ∧
    (Sample.mended Sample.onDisk (Sample.revived (Sample.compiled 9))).isSome=true ∧
      ((Sample.revived (Sample.compiled 9)).artifacts.entries.toList.all fun entry =>
        (Sample.onDisk entry.2.path).any fun contents =>
          Digest.of contents=entry.2.content)=true := by decide +kernel

/-- The object file of a committed phase is gone when the runtime comes back: recovery does not
look for it. -/
theorem outputs_missing_after_recovery : ∃ plan rt₁ t,
    beginRecovery ⟨1⟩ (Sample.revived (Sample.compiled 9))=(.ok plan,rt₁) ∧
    endRecovery (rt₁.showing (fun _ => none) Sample.world) ⟨1⟩ plan rt₁=(.ok (),t) ∧
    ¬t.OutputsIntact (fun _ => none) ⟨1⟩ := by
  obtain ⟨h,_⟩ := mended_revived
  generalize Sample.revived (Sample.compiled 9)=rt at h ⊢
  obtain ⟨⟨plan,t⟩,hm,h⟩ := (Option.any_eq_true _ _).1 h
  obtain ⟨s,hs,h⟩ := (Option.any_eq_true _ _).1 h
  obtain ⟨p,hp,h⟩ := (Option.any_eq_true _ _).1 h
  obtain ⟨hc,h⟩ := Bool.and_eq_true_iff.1 h
  obtain ⟨o,ho,h⟩ := List.any_eq_true.1 h
  obtain ⟨a,ha,hauth⟩ := (Option.any_eq_true _ _).1 h
  obtain ⟨rt₁,hb,he⟩ := of_mended hm
  refine ⟨plan,rt₁,t,hb,he,fun hin => ?_⟩
  have hfile := hin s ⟨1⟩ p o a hs hp (of_decide_eq_true hc) ho ha (of_decide_eq_true hauth)
  cases hfile

/-- With the object file in its place, every output is still on disk. -/
theorem outputs_intact_after_recovery : ∃ plan rt₁ t,
    beginRecovery ⟨1⟩ (Sample.revived (Sample.compiled 9))=(.ok plan,rt₁) ∧
    endRecovery (rt₁.showing Sample.onDisk Sample.world) ⟨1⟩ plan rt₁=(.ok (),t) ∧
    t.OutputsIntact Sample.onDisk ⟨1⟩ := by
  obtain ⟨_,h⟩ := mended_revived
  generalize Sample.revived (Sample.compiled 9)=rt at h ⊢
  obtain ⟨hm,h⟩ := h
  obtain ⟨⟨plan,t⟩,hm⟩ := Option.isSome_iff_exists.1 hm
  obtain ⟨rt₁,hb,he⟩ := of_mended hm
  refine ⟨plan,rt₁,t,hb,he,(recovery_outputs_iff hb he).2 ?_⟩
  intro s pid p o a _ _ _ _ ha _
  have hmem : (o.id.value,a) ∈ rt.artifacts.entries.toList :=
    Std.ExtTreeMap.mem_toList_iff_getElem?_eq_some.2 ha
  exact List.all_eq_true.1 h _ hmem

end Runtime

end CompilerFabric
