import CompilerFabric.Law.Authority
import CompilerFabric.Law.Conclusion
import CompilerFabric.Law.Handover
import CompilerFabric.Law.Inspection
import CompilerFabric.Law.Reproducible
import CompilerFabric.Runtime.Msvc

namespace CompilerFabric

open Base Base.Action

/-- The outputs were registered one by one under new identities, each as `make` makes it. -/
structure ArtifactRegistry.Posts (make : OutputDescriptor → IntermediateArtifact)
    (outputs : List OutputDescriptor) (refs : List (Ref .intermediate))
    (r r' : ArtifactRegistry) : Prop where
  length : refs.length=outputs.length
  fresh : ∀ o ∈ refs,r.find o.id=none
  distinct : (refs.map (·.id)).Nodup
  made : ∀ (i : Nat) reference output,refs[i]?=some reference → outputs[i]?=some output →
    r'.find reference.id=some { make output with id := reference.id,generation := .initial }
  others : ∀ id,id ∉ refs.map (·.id) → r'.find id=r.find id

namespace ArtifactRegistry.Posts

variable {make : OutputDescriptor → IntermediateArtifact} {outputs : List OutputDescriptor}
  {refs : List (Ref .intermediate)} {r r' : ArtifactRegistry} {i : Nat}
  {reference : Ref .intermediate} {output : OutputDescriptor}

theorem output_of (h : r.Posts make outputs refs r') (hi : refs[i]?=some reference) :
    ∃ output,outputs[i]?=some output := by
  have hlt := (List.getElem?_eq_some_iff.1 hi).1
  rw [h.length] at hlt
  exact ⟨outputs[i],List.getElem?_eq_getElem hlt⟩

theorem reference_of (h : r.Posts make outputs refs r') (hi : outputs[i]?=some output) :
    ∃ reference,refs[i]?=some reference := by
  have hlt := (List.getElem?_eq_some_iff.1 hi).1
  rw [← h.length] at hlt
  exact ⟨refs[i],List.getElem?_eq_getElem hlt⟩

theorem eq_nil (h : r.Posts make outputs refs r') : refs=[] ↔ outputs=[] := by
  rw [← List.length_eq_zero_iff,h.length,List.length_eq_zero_iff]

theorem formats {held : ArtifactRegistry} (h : r.Posts make outputs refs r')
    (hheld : ∀ o ∈ refs,held.find o.id=r'.find o.id) (hm : ∀ o,(make o).format=o.format) :
    (∀ o ∈ refs,∀ artifact,held.find o.id=some artifact → artifact.format=.coffObject) ↔
      ∀ o ∈ outputs,o.format=.coffObject := by
  constructor
  · intro hall output ho
    obtain ⟨i,hi⟩ := List.getElem?_of_mem ho
    obtain ⟨reference,href⟩ := h.reference_of hi
    have hmem := List.mem_of_getElem? href
    have hf := hall reference hmem _ ((hheld reference hmem).trans (h.made i reference output href hi))
    exact (hm output).symm.trans hf
  · intro hall reference ho artifact hf
    obtain ⟨i,hi⟩ := List.getElem?_of_mem ho
    obtain ⟨output,hout⟩ := h.output_of hi
    rw [hheld reference ho] at hf
    cases hf.symm.trans (h.made i reference output hi hout)
    exact (hm output).trans (hall output (List.mem_of_getElem? hout))

end ArtifactRegistry.Posts

theorem PhaseRecord.attemptReported_outputs (p : PhaseRecord) (r : Reservation)
    (report : ExecutionReport) : (p.attemptReported r report).outputs=p.outputs :=
  congrArg (·.1) (p.attemptReported_quiet r report).production

theorem PhaseRecord.produced_outputs (p : PhaseRecord) (r : Reservation) (now : UInt64) :
    (p.produced r now).outputs=p.outputs :=
  congrArg (·.1) (p.produced_quiet now r).production

namespace Runtime

variable {w : World} {r : Reservation} {rt t : Runtime} {session : CompilerSession}
  {phase p : PhaseRecord} {output : OutputDescriptor} {outputs : List OutputDescriptor}

theorem registerOutput_ok (h : registerOutput r session phase output rt=(.ok (),t))
    (hp : rt.phase r.session r.phase=some p) (hn : rt.artifacts.Numbered) :
    ∃ reference,t.phase r.session r.phase=some { p with outputs := p.outputs++[reference] } ∧
      t.artifacts.Numbered ∧ rt.artifacts.find reference.id=none ∧
      ∀ id,t.artifacts.find id=if id=reference.id then
        some { candidateArtifact session phase r.invocation output with
          id := reference.id,generation := .initial } else rt.artifacts.find id := by
  obtain ⟨reference,t₁,h₁,h⟩ := seq_eq_ok.1 h
  unfold registerArtifact at h₁
  split at h₁
  · cases h₁
  · next found artifacts hr =>
    cases h₁
    cases h
    obtain ⟨hn',hnone,hfind⟩ := hn.register hr
    refine ⟨reference,?_,hn',hnone,hfind⟩
    obtain ⟨s,hs,hp⟩ := Option.bind_eq_some_iff.1 hp
    refine (@phase_modifySession rt _ _ _ _ _ rfl).trans ?_
    rw [if_pos rfl,hs]
    have hf := s.findPhase_modifyPhase r.phase r.phase
      fun p => { p with outputs := p.outputs++[reference] }
    rw [if_pos rfl,hp] at hf
    exact hf

theorem registerOutputs_ok (h : forEach (registerOutput r session phase) outputs rt=(.ok (),t))
    (hp : rt.phase r.session r.phase=some p) (hn : rt.artifacts.Numbered) :
    ∃ refs,t.phase r.session r.phase=some { p with outputs := p.outputs++refs } ∧
      rt.artifacts.Posts (candidateArtifact session phase r.invocation) outputs refs t.artifacts := by
  induction outputs generalizing rt p with
  | nil =>
    cases h
    refine ⟨[],?_,rfl,?_,List.nodup_nil,?_,fun _ _ => rfl⟩
    · rw [List.append_nil]
      exact hp
    · simp
    · simp
  | cons output outputs ih =>
    obtain ⟨_,u,hu,h⟩ := seq_eq_ok.1 h
    obtain ⟨reference,hp',hn',hnone,hfind⟩ := registerOutput_ok hu hp hn
    obtain ⟨refs,hp'',hlen,hfresh,hdistinct,hmade,hothers⟩ := ih h hp' hn'
    have hnew : reference.id ∉ refs.map (·.id) := by
      intro hm
      obtain ⟨o,ho,he⟩ := List.mem_map.1 hm
      have hf := hfresh o ho
      rw [he,hfind,if_pos rfl] at hf
      cases hf
    refine ⟨reference::refs,?_,congrArg Nat.succ hlen,?_,List.nodup_cons.2 ⟨hnew,hdistinct⟩,?_,?_⟩
    · rw [hp'',List.append_assoc]
      rfl
    · intro o ho
      rcases List.mem_cons.1 ho with rfl | ho
      · exact hnone
      · have hf := hfresh o ho
        rw [hfind] at hf
        split at hf
        · cases hf
        · exact hf
    · intro i o output' ho houtput
      cases i with
      | zero =>
        cases ho
        cases houtput
        rw [hothers _ hnew,hfind,if_pos rfl]
      | succ i => exact hmade i o output' ho houtput
    · intro id hid
      rw [List.map_cons,List.mem_cons,not_or] at hid
      rw [hothers id hid.2,hfind,if_neg hid.1]

/-- The phase of the attempt stands with these outputs. -/
def Lists (r : Reservation) (refs : List (Ref .intermediate)) (rt : Runtime) : Prop :=
  ∃ p,rt.phase r.session r.phase=some p ∧ p.outputs=refs

theorem Lists.of_sessions {refs : List (Ref .intermediate)} (h : Lists r refs rt)
    (hs : t.sessions=rt.sessions) : Lists r refs t := by
  obtain ⟨p,hp,ho⟩ := h
  refine ⟨p,?_,ho⟩
  rw [Runtime.phase,find_of_sessions hs]
  exact hp

theorem Lists.modifySession {refs : List (Ref .intermediate)}
    {f : CompilerSession → CompilerSession} (h : Lists r refs rt)
    (hf : ∀ s p,s.findPhase r.phase=some p →
      ∃ q,(f s).findPhase r.phase=some q ∧ q.outputs=p.outputs) :
    Lists r refs (rt.modifySession r.session f) := by
  obtain ⟨p,hp,ho⟩ := h
  obtain ⟨s,hs,hp⟩ := Option.bind_eq_some_iff.1 hp
  obtain ⟨q,hq,ho'⟩ := hf s p hp
  refine ⟨q,?_,ho'.trans ho⟩
  rw [phase_modifySession (rfl : (rt.modifySession r.session f).sessions=_),if_pos rfl,hs]
  exact hq

theorem findPhase_outputs {f : PhaseRecord → PhaseRecord} (hf : ∀ p,(f p).outputs=p.outputs)
    {s : CompilerSession} {pid : CompilerPhaseId} {p : PhaseRecord} (hp : s.findPhase pid=some p) :
    ∃ q,(s.modifyPhase pid f).findPhase pid=some q ∧ q.outputs=p.outputs := by
  have hq := s.findPhase_modifyPhase pid pid f
  rw [if_pos rfl,hp] at hq
  exact ⟨f p,hq,hf p⟩

theorem Lists.modifyPhase {refs : List (Ref .intermediate)} {f : PhaseRecord → PhaseRecord}
    (h : Lists r refs rt) (hf : ∀ p,(f p).outputs=p.outputs) :
    Lists r refs (rt.modifyPhase r.session r.phase f) :=
  h.modifySession fun _ _ hp => findPhase_outputs hf hp

/-- A completion that is recorded: its outputs registered and listed, or the attempt is over. -/
theorem recordExecution_ok {report : ExecutionReport}
    (h : recordExecution w r report rt=(.ok (),t)) (hp : rt.phase r.session r.phase=some p)
    (hn : rt.artifacts.Numbered) : (∃ q,t.phase r.session r.phase=some q ∧ ¬q.state.inFlight) ∨
    ∃ q s c refs,t.phase r.session r.phase=some q ∧ q.outputs=p.outputs++refs ∧ q.kind=p.kind ∧
      rt.artifacts.Posts (candidateArtifact s c r.invocation) report.outputs refs t.artifacts := by
  have hkeeps := recordExecution_keeps (σ := fun _ => Eq) w r report rt
  rw [h] at hkeeps
  obtain ⟨q,hq,hmoves⟩ := hkeeps.phase hp
  have hkind : q.kind=p.kind := congrArg (·.2.2.2.2.2.2.2.2.2.2.2.1) hmoves.binding
  have hrecordable : p.generation=r.phaseGeneration := by
    obtain ⟨_,_,hg,h⟩ := seq_eq_ok.1 h
    cases hg
    obtain ⟨⟨session,phase⟩,_,hc,_⟩ := seq_eq_ok.1 h
    obtain ⟨hc,_⟩ := ofExcept_eq_ok.1 hc
    simp only [recordable,do_eq_ok,requireSession_ok,requirePhase_ok,ensure_ok] at hc
    obtain ⟨s,hs,p',hp',_,hg,_⟩ := hc
    cases hp.symm.trans (Option.bind_eq_some_iff.2 ⟨s,hs,hp'⟩)
    exact hg
  cases hcompleted : report.completed with
  | false =>
    left
    refine ⟨q,hq,recordExecution_ends h hcompleted q hq ?_⟩
    rw [hmoves.generation,hrecordable]
  | true =>
    right
    obtain ⟨_,_,hg,h⟩ := seq_eq_ok.1 h
    cases hg
    obtain ⟨⟨session,phase⟩,t₀,hc,h⟩ := seq_eq_ok.1 h
    obtain ⟨_,rfl⟩ := ofExcept_eq_ok.1 hc
    obtain ⟨_,t₁,h₁,h⟩ := seq_eq_ok.1 h
    cases h₁
    obtain ⟨stored,t₂,h₂,h⟩ := seq_eq_ok.1 h
    obtain ⟨_,t₃,h₃,h⟩ := seq_eq_ok.1 h
    cases h₃
    obtain ⟨_,t₄,h₄,h⟩ := seq_eq_ok.1 h
    cases h₄
    have hstored : t₂.sessions=(rt.modifyPhase r.session r.phase
        (·.attemptReported r report)).sessions ∧ t₂.artifacts=rt.artifacts := by
      unfold addDiagnostics at h₂
      split at h₂
      · cases h₂
      · cases h₂
        exact ⟨rfl,rfl⟩
    have hyes : report.executed=true ∧ report.process.exitedZero=true := by
      simpa [ExecutionReport.completed] using hcompleted
    rw [if_pos hyes] at h
    obtain ⟨_,t₅,h₅,h⟩ := seq_eq_ok.1 h
    cases h₅
    have hlists : Lists r p.outputs rt := ⟨p,hp,rfl⟩
    have hlists : Lists r p.outputs t₂ := (hlists.modifyPhase
      fun p => p.attemptReported_outputs r report).of_sessions hstored.1
    have hlists := (hlists.modifyPhase (f := fun p => { p with diagnostics := stored })
      fun _ => rfl).modifyPhase fun p => p.produced_outputs r w.now
    obtain ⟨p',hp',ho'⟩ := hlists
    obtain ⟨_,t₆,h₆,h⟩ := seq_eq_ok.1 h
    obtain ⟨refs,hloop,hposts⟩ := registerOutputs_ok h₆ hp' (hstored.2.symm ▸ hn)
    have hlists : Lists r (p.outputs++refs) t₆ := ⟨_,hloop,congrArg (·++refs) ho'⟩
    obtain ⟨_,t₇,h₇,h⟩ := seq_eq_ok.1 h
    cases h₇
    obtain ⟨_,t₈,h₈,h⟩ := seq_eq_ok.1 h
    cases h₈
    have hlists := hlists.modifyPhase (f := fun p => { p with committedOutputDigest :=
      (outputSetDigestFromArtifacts t₆.artifacts p.outputs) }) fun _ => rfl
    have hlists := hlists.modifySession (f := fun s => (s.modifyPhase r.phase
      (·.recordTransition .validating (ascii "candidate outputs registered for validation")
        w.now)).touched w.now) fun _ _ hp => findPhase_outputs
          (fun p => p.recordTransition_outputs _ _ _) hp
    obtain ⟨_,_,ht⟩ := persistSession_frame w r.session h
    have hsessions := congrArg Runtime.sessions ht
    have hartifacts : t.artifacts=t₆.artifacts := by
      rw [ht]
      rfl
    obtain ⟨q',hq',ho''⟩ := hlists.of_sessions hsessions
    cases hq'.symm.trans hq
    have hposts : rt.artifacts.Posts (candidateArtifact session phase r.invocation) report.outputs
        refs t.artifacts := by
      rw [hartifacts,← hstored.2]
      exact hposts
    exact ⟨_,_,_,refs,hq,ho'',hkind,hposts⟩

theorem setArtifactState_writes (state : ArtifactState) (detail : Bytes) :
    WritesArtifact (ArtifactRegistry.withState state detail) (setArtifactState state detail) := by
  intro reference rt
  refine ⟨_,rfl,?_⟩
  intro i
  unfold ArtifactRegistry.setState
  cases ha : rt.artifacts.find reference.id with
  | none =>
    by_cases hi : i=reference.id.value
    · have hn : rt.artifacts.entries[i]?=none := hi ▸ ha
      simp [hn]
    · simp [hi]
  | some a => exact Table.Rewrites.modify reference.id.value i

theorem withState_withState (state : ArtifactState) (detail : Bytes) (a : IntermediateArtifact) :
    ArtifactRegistry.withState state detail (ArtifactRegistry.withState state detail a)=
      ArtifactRegistry.withState state detail a := by
  unfold ArtifactRegistry.withState
  by_cases h : (!state.isConsumable && a.authority=.authoritative)=true
  · simp [h]
  · simp [h]

theorem validationFailed_state (p : PhaseRecord) (evidence : ValidationEvidence) (now : UInt64) :
    ¬(validationFailed evidence now p).state.inFlight := by
  unfold validationFailed
  dsimp only
  rw [PhaseRecord.recordTransition_state]
  generalize (PhaseRecord.modifyLastAttempt _ _).state=s
  cases s <;> decide

/-- Evidence that is applied is written on every output the phase has; without acceptance the
attempt is over. -/
theorem applyEvidence_ok {evidence : ValidationEvidence}
    (h : applyEvidence w r evidence rt=(.ok (),t)) (hs : rt.find r.session=some session)
    (hp : session.findPhase r.phase=some p) :
    Table.Rewrites (ArtifactRegistry.withState evidence.outputState evidence.detail)
      (p.outputs.map (·.id.value)) rt.artifacts.entries t.artifacts.entries ∧
    ∃ q,t.phase r.session r.phase=some q ∧ q.outputs=p.outputs ∧
      (q.state.inFlight → evidence.accepted ∧ p.state.inFlight) := by
  have hkeeps := (applyEvidence_within w r evidence rt (σ := fun _ => Eq)).keeps
  rw [h] at hkeeps
  obtain ⟨q,hq,hquiet⟩ := hkeeps.phase (Option.bind_eq_some_iff.2 ⟨session,hs,hp⟩)
  have hq : t.phase r.session r.phase=some q := hq
  obtain ⟨_,_,hg,h⟩ := seq_eq_ok.1 h
  cases hg
  obtain ⟨found,_,hx,h⟩ := seq_eq_ok.1 h
  obtain ⟨hfound,rfl⟩ := ofExcept_eq_ok.1 hx
  cases hs.symm.trans ((requireSession_ok _).1 hfound)
  obtain ⟨phase,_,hx,h⟩ := seq_eq_ok.1 h
  obtain ⟨hfound,rfl⟩ := ofExcept_eq_ok.1 hx
  cases hp.symm.trans ((requirePhase_ok _).1 hfound)
  obtain ⟨_,t₁,h₁,h⟩ := seq_eq_ok.1 h
  obtain ⟨artifacts,he,hw⟩ := forEach_writes
    (setArtifactState_writes evidence.outputState evidence.detail) (withState_withState _ _) p.outputs rt
  cases he.symm.trans h₁
  split at h
  · next ha =>
    obtain ⟨_,_,hm,h⟩ := seq_eq_ok.1 h
    cases hm
    obtain ⟨_,_,hm,h⟩ := seq_eq_ok.1 h
    cases hm
    obtain ⟨_,_,ht⟩ := persistSession_frame w r.session h
    subst ht
    exact ⟨hw,q,hq,congrArg (·.1) hquiet.production,fun hflight => ⟨ha,hquiet.flight hflight⟩⟩
  · obtain ⟨_,_,hm,h⟩ := seq_eq_ok.1 h
    cases hm
    obtain ⟨_,_,ht⟩ := persistSession_frame w r.session h
    subst ht
    refine ⟨hw,q,hq,congrArg (·.1) hquiet.production,fun hflight => ?_⟩
    have hend := (@phase_modifySession { rt with artifacts } _ _ r.session r.phase _ rfl).symm.trans hq
    rw [if_pos rfl,show ({ rt with artifacts } : Runtime).find r.session=some session from hs] at hend
    have hmodified := session.findPhase_modifyPhase r.phase r.phase (validationFailed evidence w.now)
    rw [if_pos rfl,hp] at hmodified
    cases hmodified.symm.trans hend
    exact absurd hflight (validationFailed_state p evidence w.now)

/-- A commit that returns its phase COMMITTED has promoted every output that is VALID. -/
theorem commitReserved_promotes {report : ExecutionReport} {out : PhaseRunReport}
    (h : commitReserved w r report rt=(.ok out,t)) (ho : out.state=.committed) :
    ∃ s p,rt.committable r=.ok (s,p) ∧
      rt.artifacts.Promotes (p.outputs.map (·.id.value)) t.artifacts := by
  obtain ⟨_,_,hg,h⟩ := seq_eq_ok.1 h
  cases hg
  obtain ⟨⟨s,p⟩,_,hx,h⟩ := seq_eq_ok.1 h
  obtain ⟨hc,rfl⟩ := ofExcept_eq_ok.1 hx
  refine ⟨s,p,hc,?_⟩
  obtain ⟨_,u,hu,h⟩ := seq_eq_ok.1 h
  obtain ⟨_,_,hframe⟩ := reprobe_ok w r hu
  have hartifacts : u.artifacts=rt.artifacts := by rw [hframe]
  rw [← hartifacts]
  obtain ⟨_,_,hg,h⟩ := seq_eq_ok.1 h
  cases hg
  split at h
  · obtain ⟨⟨provenance,committed,concluded⟩,u₁,hstage,h⟩ := seq_eq_ok.1 h
    obtain ⟨_,u₂,hpersist,h⟩ := seq_eq_ok.1 h
    obtain ⟨_,_,hm,h⟩ := seq_eq_ok.1 h
    cases hm
    obtain ⟨_,u₃,hrelease,h⟩ := seq_eq_ok.1 h
    cases h
    have h₁ := stage_promotes hstage
    have h₂ := persist_bearings (w := w) committed u₁
    rw [hpersist] at h₂
    have h₃ := release_bearings p provenance (u₂.modifySession r.session fun _ => committed)
    rw [hrelease] at h₃
    intro id
    exact (h₃ id).trans ((h₂ id).trans (h₁ id))
  · obtain ⟨_,_,_,h⟩ := seq_eq_ok.1 h
    obtain ⟨_,_,_,h⟩ := seq_eq_ok.1 h
    obtain ⟨_,_,_,h⟩ := seq_eq_ok.1 h
    obtain ⟨_,_,_,h⟩ := seq_eq_ok.1 h
    obtain ⟨_,_,_,h⟩ := seq_eq_ok.1 h
    obtain ⟨_,_,_,h⟩ := seq_eq_ok.1 h
    obtain ⟨_,_,_,h⟩ := seq_eq_ok.1 h
    obtain ⟨_,_,_,h⟩ := seq_eq_ok.1 h
    obtain ⟨_,_,_,h⟩ := seq_eq_ok.1 h
    cases h
    cases ho

end Runtime

namespace MsvcAdapter

variable {files : Bytes → FileView} {request : OutputValidationRequest}
  {evidence : ValidationEvidence} {reference : Ref .intermediate}

/-- The validation has looked into the file of the candidate and found its own format, for the
machine of the target. -/
inductive Checked (files : Bytes → FileView) (request : OutputValidationRequest)
    (reference : Ref .intermediate) : Prop
  | object {artifact : IntermediateArtifact} {info : CoffObjectInfo} (hk : request.kind=.codegen)
      (hm : reference ∈ request.candidateOutputs)
      (ha : request.artifacts.find reference.id=some artifact) (hf : artifact.format=.coffObject)
      (hi : inspectCoffObject artifact.path (files artifact.path)=.ok info)
      (ht : info.machine=coffMachineFor request.architecture) : Checked files request reference
  | image {artifact : IntermediateArtifact} {info : PeImageInfo} (hk : request.kind=.link)
      (hl : linkedImage request=some (reference,artifact))
      (hi : inspectPeImage artifact.path (files artifact.path)=.ok info)
      (ht : info.machine=coffMachineFor request.architecture) : Checked files request reference

theorem inspected_ok {α : Type} {x : Inspection α} {next : α → Inspection ValidationEvidence}
    {before : ValidationEvidence} (h : inspected before x next=.ok evidence)
    (hb : before.accepted=false) (ha : evidence.accepted) : ∃ a,x=.ok a ∧ next a=.ok evidence := by
  unfold inspected at h
  split at h
  · cases h
    exact absurd ha (by simp [ValidationEvidence.refused,hb])
  · cases h
  · next a => exact ⟨a,rfl,h⟩

/-- The loop that accepts has checked every object that is registered as one. -/
theorem validateObjects_ok {refs : List (Ref .intermediate)} {before : ValidationEvidence}
    (h : validateObjects files request refs before=.ok evidence) (hb : before.accepted=false)
    (ha : evidence.accepted) (hk : request.kind=.codegen)
    (hm : ∀ o ∈ refs,o ∈ request.candidateOutputs) (hf : ∀ o ∈ refs,∀ artifact,
      request.artifacts.find o.id=some artifact → artifact.format=.coffObject) :
    ∀ o ∈ refs,Checked files request o := by
  induction refs generalizing before with
  | nil => simp
  | cons o refs ih =>
    rw [List.forall_mem_cons] at hm hf
    rw [List.forall_mem_cons]
    unfold validateObjects at h
    split at h
    · cases h
      exact absurd ha (by simp [ValidationEvidence.refused,hb])
    · next artifact hfind =>
      dsimp only at h
      split at h
      · cases h
        exact absurd ha (by simp [ValidationEvidence.refused,ValidationEvidence.checked,hb])
      split at h
      · cases h
        exact absurd ha (by simp [ValidationEvidence.refused,ValidationEvidence.checked,hb])
      obtain ⟨info,hi,h⟩ := inspected_ok h hb ha
      split at h
      · cases h
        exact absurd ha (by simp [ValidationEvidence.refused,ValidationEvidence.checked,hb])
      · next ht =>
        exact ⟨.object hk hm.1 hfind (hf.1 artifact hfind) hi (not_not.1 ht),ih h hb hm.2 hf.2⟩

theorem validateImage_ok (h : validateImage files request=.ok evidence) (ha : evidence.accepted)
    (hk : request.kind=.link) :
    ∃ reference artifact,linkedImage request=some (reference,artifact) ∧
      Checked files request reference := by
  unfold validateImage at h
  split at h
  · cases h
    cases ha
  · next reference artifact hl =>
    dsimp only at h
    obtain ⟨info,hi,h⟩ := inspected_ok h rfl ha
    split at h
    · cases h
      cases ha
    · next ht => exact ⟨reference,artifact,hl,.image hk hl hi (not_not.1 ht)⟩

theorem linkedImage_mem {artifact : IntermediateArtifact}
    (h : linkedImage request=some (reference,artifact)) : reference ∈ request.candidateOutputs := by
  obtain ⟨o,ho,he⟩ := List.exists_of_findSome?_eq_some h
  obtain ⟨a,_,he⟩ := Option.bind_eq_some_iff.1 he
  split at he
  · cases he
    exact ho
  · cases he

/-- Accepted evidence rests on every candidate where a phase inspected objects, on the image alone
where it links, and on none elsewhere. -/
theorem accepted_checked_iff (h : validateOutputs files request=.ok evidence)
    (ha : evidence.accepted) (hn : (request.candidateOutputs.map (·.id)).Nodup) :
    (∀ o ∈ request.candidateOutputs,Checked files request o) ↔
      (request.kind=.codegen ∧ ∀ o ∈ request.candidateOutputs,∀ artifact,
        request.artifacts.find o.id=some artifact → artifact.format=.coffObject) ∨
      (request.kind=.link ∧ request.candidateOutputs.length ≤ 1) ∨
      request.candidateOutputs=[] := by
  constructor
  · intro hall
    cases hc : request.candidateOutputs with
    | nil => exact .inr (.inr rfl)
    | cons o refs =>
      rw [← hc]
      cases hall o (hc ▸ List.mem_cons_self) with
      | object hk =>
        refine .inl ⟨hk,fun o' ho' artifact hfind => ?_⟩
        cases hall o' ho' with
        | object _ _ hfind' hf =>
          cases hfind.symm.trans hfind'
          exact hf
        | image hk' =>
          rw [hk] at hk'
          cases hk'
      | image hk hl _ _ =>
        refine .inr (.inl ⟨hk,?_⟩)
        rw [hc,List.length_cons]
        cases refs with
        | nil => exact Nat.le_refl 1
        | cons o' refs =>
          cases hall o' (by simp [hc]) with
          | object hk' =>
            rw [hk] at hk'
            cases hk'
          | image _ hl' _ _ =>
            cases hl.symm.trans hl'
            rw [hc] at hn
            simp at hn
  · unfold validateOutputs at h
    rintro (⟨hk,hf⟩ | ⟨hk,hlen⟩ | hc)
    · rw [hk] at h
      dsimp only at h
      split at h
      · cases h
        cases ha
      · exact validateObjects_ok h rfl ha hk (fun _ ho => ho) hf
    · rw [hk] at h
      obtain ⟨reference,artifact,hl,hchecked⟩ := validateImage_ok h ha hk
      have hm := linkedImage_mem hl
      intro o ho
      obtain ⟨x,hx⟩ := List.length_eq_one_iff.1 (Nat.le_antisymm hlen (List.length_pos_of_mem ho))
      rw [hx,List.mem_singleton] at ho hm
      rw [ho,← hm]
      exact hchecked
    · simp [hc]

end MsvcAdapter

/-- Other callers have been at work: the phase of the attempt and its outputs stand as they did, and
of the rest nothing but `others` has become authoritative. -/
structure Runtime.Meanwhile (r : Reservation) (others : List IntermediateArtifactId) (rt t : Runtime) :
    Prop where
  phase : t.phase r.session r.phase=rt.phase r.session r.phase
  outputs : ∀ p,rt.phase r.session r.phase=some p → ∀ o ∈ p.outputs,
    o.id ∉ others ∧ t.artifacts.find o.id=rt.artifacts.find o.id
  authority : ∀ id a,t.artifacts.find id=some a → a.authority=.authoritative →
    (∃ b,rt.artifacts.find id=some b ∧ b.authority=.authoritative) ∨ id ∈ others

/-- A completion is recorded for a phase that was reserved, its outputs validated by the MSVC
adapter on the files as they are, and the phase committed, with other callers in between. -/
inductive Runtime.Delivers (files : Bytes → FileView) (r : Reservation) (report : ExecutionReport)
    (p : PhaseRecord) (others : List IntermediateArtifactId) (rt : Runtime) :
    OutputValidationRequest → Runtime → Prop
  | mk {w₁ w₂ w₃ : World} {t₁ v₁ v₂ t₂ v₃ t : Runtime} {s₁ : CompilerSession} {p₁ : PhaseRecord}
      {process : Option ProcessOutcome} {evidence : ValidationEvidence} {report' : ExecutionReport}
      {out : PhaseRunReport} (hn : rt.artifacts.Numbered)
      (hp : rt.phase r.session r.phase=some p) (hempty : p.outputs=[])
      (hrecord : Runtime.recordExecution w₁ r report rt=(.ok (),t₁))
      (h₁ : Runtime.Meanwhile r others t₁ v₁)
      (hs : v₁.find r.session=some s₁) (hp₁ : s₁.findPhase r.phase=some p₁)
      (hvalidate : MsvcAdapter.validateOutputs files (v₁.validationRequest s₁ p₁ process)=.ok evidence)
      (h₂ : Runtime.Meanwhile r others v₁ v₂)
      (happly : Runtime.applyEvidence w₂ r evidence v₂=(.ok (),t₂))
      (h₃ : Runtime.Meanwhile r others t₂ v₃)
      (hcommit : Runtime.commitReserved w₃ r report' v₃=(.ok out,t)) (hc : out.state=.committed) :
      Delivers files r report p others rt (v₁.validationRequest s₁ p₁ process) t

/-- What a commit made authoritative was reported as existing, and checked in its own format; what
was reported as absent is neither VALID nor authoritative. -/
structure Runtime.OnlyExisting (files : Bytes → FileView) (report : ExecutionReport)
    (others : List IntermediateArtifactId) (request : OutputValidationRequest) (rt t : Runtime) :
    Prop where
  made : ∀ id a,t.artifacts.find id=some a → a.authority=.authoritative →
    (∃ b,rt.artifacts.find id=some b ∧ b.authority=.authoritative) ∨ id ∈ others ∨
    ∃ (i : Nat) (reference : Ref .intermediate) (output : OutputDescriptor),
      request.candidateOutputs[i]?=some reference ∧ reference.id=id ∧
      report.outputs[i]?=some output ∧ output.present ∧ MsvcAdapter.Checked files request reference
  absent : ∀ (i : Nat) (reference : Ref .intermediate) (output : OutputDescriptor) a,
    request.candidateOutputs[i]?=some reference → report.outputs[i]?=some output →
    output.present=false → t.artifacts.find reference.id=some a →
    a.state ≠ .valid ∧ a.authority ≠ .authoritative

/-- Every output exists, and the adapter looks into all of them: they are objects of a phase that
compiles, or the one output of a phase that links. -/
def PhaseRecord.Inspectable (p : PhaseRecord) (outputs : List OutputDescriptor) : Prop :=
  (∀ o ∈ outputs,o.present) ∧ ((p.kind=.codegen ∧ ∀ o ∈ outputs,o.format=.coffObject) ∨
    (p.kind=.link ∧ outputs.length ≤ 1) ∨ outputs=[])

namespace Runtime

variable {files : Bytes → FileView} {r : Reservation} {report : ExecutionReport} {rt t : Runtime}
  {request : OutputValidationRequest} {p : PhaseRecord} {others : List IntermediateArtifactId}

instance : Decidable (Meanwhile r [] rt t) :=
  decidable_of_iff (t.phase r.session r.phase=rt.phase r.session r.phase ∧
      ((rt.phase r.session r.phase).all fun p => p.outputs.all fun o =>
        t.artifacts.find o.id=rt.artifacts.find o.id) ∧
      t.artifacts.entries.toList.all fun entry => entry.2.authority ≠ .authoritative ||
        (rt.artifacts.find ⟨entry.1⟩).any (·.authority=.authoritative)) <| by
    constructor
    · rintro ⟨hphase,houtputs,hauthority⟩
      refine ⟨hphase,fun p hp o ho => ?_,fun id a ha hu => ?_⟩
      · rw [hp] at houtputs
        exact ⟨List.not_mem_nil,of_decide_eq_true (List.all_eq_true.1 houtputs o ho)⟩
      · have hm := Std.ExtTreeMap.mem_toList_iff_getElem?_eq_some.2 ha
        have hall := List.all_eq_true.1 hauthority _ hm
        rw [hu] at hall
        obtain ⟨b,hb,hv⟩ := (Option.any_eq_true _ _).1 (by simpa using hall)
        exact .inl ⟨b,hb,of_decide_eq_true hv⟩
    · rintro ⟨hphase,houtputs,hauthority⟩
      refine ⟨hphase,?_,List.all_eq_true.2 fun entry hm => ?_⟩
      · cases hp : rt.phase r.session r.phase with
        | none => rfl
        | some p => exact List.all_eq_true.2 fun o ho => decide_eq_true (houtputs p hp o ho).2
      · by_cases hu : entry.2.authority=.authoritative
        · obtain ⟨b,hb,hv⟩ | h := hauthority ⟨entry.1⟩ entry.2
            (Std.ExtTreeMap.mem_toList_iff_getElem?_eq_some.1 hm) hu
          · rw [hb]
            simp [hv]
          · exact absurd h List.not_mem_nil
        · simp [hu]

/-- What a commit that follows its validation has published. -/
structure Delivered (files : Bytes → FileView) (report : ExecutionReport) (p : PhaseRecord)
    (others : List IntermediateArtifactId) (rt : Runtime) (request : OutputValidationRequest)
    (t : Runtime) : Prop where
  kind : request.kind=p.kind
  accepted : ∃ evidence,MsvcAdapter.validateOutputs files request=.ok evidence ∧ evidence.accepted
  posts : ∃ s c i recorded,rt.artifacts.Posts (candidateArtifact s c i) report.outputs
    request.candidateOutputs recorded ∧
    ∀ o ∈ request.candidateOutputs,request.artifacts.find o.id=recorded.find o.id
  upheld : ∀ o ∈ request.candidateOutputs,o.id ∉ others ∧
    ∃ a,t.artifacts.find o.id=some a ∧ a.state=.valid ∧ a.authority=.authoritative
  others : ∀ id a,id ∉ request.candidateOutputs.map (·.id) → t.artifacts.find id=some a →
    a.authority=.authoritative →
    (∃ b,rt.artifacts.find id=some b ∧ b.authority=.authoritative) ∨ id ∈ others

theorem Delivers.delivered (h : Delivers files r report p others rt request t) :
    Delivered files report p others rt request t := by
  cases h with
  | @mk w₁ w₂ w₃ t₁ v₁ v₂ t₂ v₃ t s₁ p₁ process evidence report' out hn hp hempty hrecord h₁ hs hp₁
      hvalidate h₂ happly h₃ hcommit hc =>
    obtain ⟨s₃,p₃,hcommittable,hpromotes⟩ := commitReserved_promotes hcommit hc
    obtain ⟨hs₃,hp₃,_,_,hready⟩ := committable_ok r hcommittable
    have hv₁ : v₁.phase r.session r.phase=some p₁ := Option.bind_eq_some_iff.2 ⟨s₁,hs,hp₁⟩
    have hv₂ := h₂.phase.trans hv₁
    obtain ⟨s₂,hs₂,hp₂⟩ := Option.bind_eq_some_iff.1 hv₂
    obtain ⟨hwrites,q₂,ht₂,houtputs,hflight⟩ := applyEvidence_ok happly hs₂ hp₂
    have hv₃ : v₃.phase r.session r.phase=some p₃ := Option.bind_eq_some_iff.2 ⟨s₃,hs₃,hp₃⟩
    cases hv₃.symm.trans (h₃.phase.trans ht₂)
    obtain ⟨haccepted,hflight⟩ := hflight (by rw [hready]; rfl)
    have ht₁ := h₁.phase.symm.trans hv₁
    rcases recordExecution_ok hrecord hp hn with ⟨q,hq,hnot⟩ | ⟨q,s,c,refs,hq,hrefs,hkind,hposts⟩
    · cases hq.symm.trans ht₁
      exact absurd hflight hnot
    cases hq.symm.trans ht₁
    rw [hempty,List.nil_append] at hrefs
    rw [houtputs] at hpromotes
    have hspared₁ := h₁.outputs p₁ ht₁
    have hspared₂ := h₂.outputs p₁ hv₁
    have hspared₃ := h₃.outputs p₃ ht₂
    rw [houtputs] at hspared₃
    have hvalid : evidence.outputState=.valid := by
      rw [ValidationEvidence.outputState,if_pos haccepted]
    have hmem (id : IntermediateArtifactId) : id.value ∈ p₁.outputs.map (·.id.value) ↔
        id ∈ p₁.outputs.map (·.id) := by
      simp only [List.mem_map,StrongId.ext_iff]
    have hfound (id : IntermediateArtifactId) : t₂.artifacts.find id=
        if id.value ∈ p₁.outputs.map (·.id.value) then (v₂.artifacts.find id).map
          (ArtifactRegistry.withState evidence.outputState evidence.detail)
        else v₂.artifacts.find id := hwrites id.value
    refine ⟨hkind,⟨evidence,hvalidate,haccepted⟩,⟨s,c,r.invocation,t₁.artifacts,?_,?_⟩,?_,?_⟩
    · rw [← hrefs] at hposts
      exact hposts
    · exact fun o ho => (hspared₁ o ho).2
    · intro o ho
      have hmo : o.id.value ∈ p₁.outputs.map (·.id.value) := List.mem_map_of_mem ho
      obtain ⟨i,hi⟩ := List.getElem?_of_mem ho
      have hlt : i < report.outputs.length := by
        rw [← hposts.length,← hrefs]
        exact (List.getElem?_eq_some_iff.1 hi).1
      have hmade := hposts.made i o _ (hrefs ▸ hi) (List.getElem?_eq_getElem hlt)
      have hstanding := hfound o.id
      rw [if_pos hmo,(hspared₂ o ho).2,(hspared₁ o ho).2,hmade,Option.map_some,hvalid] at hstanding
      rw [← (hspared₃ o ho).2] at hstanding
      exact ⟨(hspared₁ o ho).1,hpromotes.upheld_iff.2 ⟨_,hstanding,rfl,.inr hmo⟩⟩
    · intro id a hid ha hu
      obtain ⟨b₃,hb₃,hu₃⟩ := hpromotes.aside ((hmem id).not.2 hid) ha
      rcases h₃.authority id b₃ hb₃ (hu₃.trans hu) with ⟨b₂,hb₂,hu₂⟩ | h
      · rw [hfound,if_neg ((hmem id).not.2 hid)] at hb₂
        rcases h₂.authority id b₂ hb₂ hu₂ with ⟨b₁,hb₁,hu₁⟩ | h
        · rcases h₁.authority id b₁ hb₁ hu₁ with ⟨b,hb,hu⟩ | h
          · have hid' : id ∉ refs.map (·.id) := hrefs ▸ hid
            rw [hposts.others id hid'] at hb
            exact .inl ⟨b,hb,hu⟩
          · exact .inr h
        · exact .inr h
      · exact .inr h

/-- Everything a commit makes authoritative was reported as existing and checked in its own format,
exactly when every output exists and the adapter looks into all of them, whatever other callers do
elsewhere meanwhile. -/
theorem onlyExisting_iff_inspectable (h : Delivers files r report p others rt request t) :
    OnlyExisting files report others request rt t ↔ p.Inspectable report.outputs := by
  obtain ⟨hkind,⟨evidence,hv,ha⟩,⟨s,c,i,recorded,hposts,hheld⟩,hupheld,hothers⟩ := h.delivered
  have hchecked := MsvcAdapter.accepted_checked_iff hv ha hposts.distinct
  rw [hposts.formats hheld fun _ => rfl,hkind,hposts.length,hposts.eq_nil] at hchecked
  constructor
  · intro honly
    have hall : ∀ (i : Nat) (reference : Ref .intermediate) (output : OutputDescriptor),
        request.candidateOutputs[i]?=some reference → report.outputs[i]?=some output →
        output.present ∧ MsvcAdapter.Checked files request reference := by
      intro i reference output hi ho
      have hm := List.mem_of_getElem? hi
      obtain ⟨hnot,a,hf,_,hu⟩ := hupheld reference hm
      rcases honly.made reference.id a hf hu with
        ⟨b,hb,_⟩ | h | ⟨j,reference',output',hj,he,ho',hp,hc⟩
      · rw [hposts.fresh reference hm] at hb
        cases hb
      · exact absurd h hnot
      · have hij : i=j := by
          have hlt := (List.getElem?_eq_some_iff.1 hi).1
          rw [← List.length_map (·.id)] at hlt
          refine (List.getElem?_inj hlt hposts.distinct).1 ?_
          rw [List.getElem?_map,List.getElem?_map,hi,hj,Option.map_some,Option.map_some,he]
        subst hij
        cases hi.symm.trans hj
        cases ho.symm.trans ho'
        exact ⟨hp,hc⟩
    refine ⟨fun output ho => ?_,hchecked.1 fun reference hm => ?_⟩
    · obtain ⟨i,hi⟩ := List.getElem?_of_mem ho
      obtain ⟨reference,href⟩ := hposts.reference_of hi
      exact (hall i reference output href hi).1
    · obtain ⟨i,hi⟩ := List.getElem?_of_mem hm
      obtain ⟨output,ho⟩ := hposts.output_of hi
      exact (hall i reference output hi ho).2
  · rintro ⟨hpresent,hlooked⟩
    have hall := hchecked.2 hlooked
    refine ⟨fun id a hf hu => ?_,fun i reference output a hi ho habsent hf => ?_⟩
    · by_cases hid : id ∈ request.candidateOutputs.map (·.id)
      · right
        right
        obtain ⟨reference,hm,he⟩ := List.mem_map.1 hid
        obtain ⟨i,hi⟩ := List.getElem?_of_mem hm
        obtain ⟨output,ho⟩ := hposts.output_of hi
        exact ⟨i,reference,output,hi,he,ho,hpresent output (List.mem_of_getElem? ho),
          hall reference hm⟩
      · rcases hothers id a hid hf hu with hb | h
        · exact .inl hb
        · exact .inr (.inl h)
    · rw [hpresent output (List.mem_of_getElem? ho)] at habsent
      cases habsent

end Runtime

namespace Sample

/-- One phase that compiles. -/
def inspecting : World :=
  { world with localPlan := PhasePlan.build [{ id := ⟨1⟩,kind := .codegen }] }

def objectReport : ExecutionReport :=
  { executed := true
    process := { id := ⟨1⟩,termination := .exited }
    outputs := [{ logicalName := ascii "object",path := ascii "main.obj",format := .coffObject
                  sizeBytes := 20,present := true }] }

def objectFiles : Bytes → FileView := fun path =>
  if path=ascii "main.obj" then .content headerOnly else .missing

/-- A process whose phase has executed its compiler. -/
def inspected : System := (ready.apply (.call (.createSession request) inspecting)).run
  (.call (.runPhase ⟨1⟩ ⟨1⟩) inspecting::List.replicate 3 (.resume 2 inspecting))

def objectTicket : Reservation :=
  match (inspected.calls[2]? : Option Call) with
  | some (.phase { pc := .record r _,.. }) => r
  | _ => {}

/-- What the completion leaves, what the adapter is handed then, and what the evidence and the commit
leave, with another caller in between. -/
def objectRecorded : Result Unit × Runtime :=
  Runtime.recordExecution world objectTicket objectReport inspected.rt

/-- Another caller creates a session before the adapter is handed what there is. -/
def objectShared : Runtime := (Runtime.createSession inspecting request objectRecorded.2).2

def objectSession : CompilerSession :=
  (objectShared.find objectTicket.session).getD {}

def objectPhase : PhaseRecord := (objectSession.findPhase objectTicket.phase).getD {}

def objectRequest : OutputValidationRequest :=
  objectShared.validationRequest objectSession objectPhase none

def objectEvidence : Inspection ValidationEvidence :=
  MsvcAdapter.validateOutputs objectFiles objectRequest

def objectApplied : Result Unit × Runtime :=
  Runtime.applyEvidence world objectTicket (objectEvidence.toOption.getD {}) objectShared

/-- The phase of the other session is reserved before the commit. -/
def objectCrowded : Runtime := (Runtime.reserve inspecting ⟨2⟩ ⟨2⟩ false objectApplied.2).2

def objectCommitted : Result PhaseRunReport × Runtime :=
  Runtime.commitReserved world objectTicket objectReport objectCrowded

end Sample

theorem done_of_isOk {σ : Type} {x : Result Unit × σ} (h : x.1.isOk=true) : x=(.ok (),x.2) := by
  obtain ⟨_ | _,t⟩ := x
  · cases h
  · rfl

namespace Runtime

open Sample

/-- An object that exists is committed, and was inspected, while another session is created and its
phase reserved. -/
theorem onlyExisting_of_object : (objectCrowded.phase ⟨2⟩ ⟨2⟩).any (·.state=.preparing) ∧ ∃ p,
    Delivers objectFiles objectTicket objectReport p [] inspected.rt objectRequest objectCommitted.2 ∧
    OnlyExisting objectFiles objectReport [] objectRequest inspected.rt objectCommitted.2 := by
  have h : inspected.rt.artifacts.entries.size=0 ∧ inspected.rt.artifacts.allocator.counter=1 ∧
      (inspected.rt.phase objectTicket.session objectTicket.phase).any (fun p =>
        p.outputs=[] ∧ p.kind=.codegen) ∧ objectRecorded.1.isOk ∧
      Meanwhile objectTicket [] objectRecorded.2 objectShared ∧
      (objectShared.find objectTicket.session).isSome ∧
      (objectSession.findPhase objectTicket.phase).isSome ∧
      objectEvidence.isOk ∧ Meanwhile objectTicket [] objectShared objectShared ∧ objectApplied.1.isOk ∧
      Meanwhile objectTicket [] objectApplied.2 objectCrowded ∧ objectCommitted.1.isOk ∧
      (objectCommitted.1.toOption.getD {}).state=.committed ∧
      (objectCrowded.phase ⟨2⟩ ⟨2⟩).any (·.state=.preparing) := by decide +kernel
  obtain ⟨hsize,hcounter,hp,hrecord,h₁,hs,hp₁,hevidence,h₂,happly,h₃,hcommit,hc,hcrowded⟩ := h
  obtain ⟨p,hp,hk⟩ := (Option.any_eq_true _ _).1 hp
  obtain ⟨hempty,hkind⟩ := of_decide_eq_true hk
  have hn : inspected.rt.artifacts.Numbered := by
    refine ⟨by rw [hcounter,hsize]; rfl,fun i hi => ?_⟩
    rw [Std.ExtTreeMap.eq_empty_iff_size_eq_zero.2 hsize] at hi
    simp at hi
  have hvalidate : objectEvidence=.ok (objectEvidence.toOption.getD {}) := by
    revert hevidence
    cases objectEvidence with
    | error e => exact fun h => absurd h (by simp [Except.isOk,Except.toBool])
    | ok evidence => exact fun _ => rfl
  have hs : objectShared.find objectTicket.session=some objectSession :=
    (Option.getD_of_ne_none (Option.isSome_iff_ne_none.1 hs) {}).symm
  have hp₁ : objectSession.findPhase objectTicket.phase=some objectPhase :=
    (Option.getD_of_ne_none (Option.isSome_iff_ne_none.1 hp₁) {}).symm
  have hrecord : Runtime.recordExecution world objectTicket objectReport inspected.rt=
      (.ok (),objectRecorded.2) := done_of_isOk hrecord
  have happly : Runtime.applyEvidence world objectTicket (objectEvidence.toOption.getD {})
      objectShared=(.ok (),objectApplied.2) := done_of_isOk happly
  have hcommit : Runtime.commitReserved world objectTicket objectReport objectCrowded=
      (.ok (objectCommitted.1.toOption.getD {}),objectCommitted.2) := eq_of_isOk hcommit {}
  have hd : Delivers objectFiles objectTicket objectReport p [] inspected.rt objectRequest
      objectCommitted.2 := .mk hn hp hempty hrecord h₁ hs hp₁ hvalidate h₂ happly h₃ hcommit hc
  refine ⟨hcrowded,p,hd,(onlyExisting_iff_inspectable hd).2 ⟨?_,.inl ⟨hkind,?_⟩⟩⟩
  · simp [objectReport]
  · simp [objectReport]

end Runtime

end CompilerFabric
