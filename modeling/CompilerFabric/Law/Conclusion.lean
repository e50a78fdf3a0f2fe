import CompilerFabric.Core.Lineage
import CompilerFabric.Runtime.Outputs
import CompilerFabric.Runtime.Steps

namespace CompilerFabric

open Base Base.Action

/-- Everything the session has ever produced, as its record lists it. -/
def CompilerSession.listed (s : CompilerSession) : List IntermediateArtifactId :=
  s.intermediates.map (·.id)

namespace IntermediateArtifact

/-- What a lineage goes by. -/
def bearing (a : IntermediateArtifact) := (a.id,a.lineageInputs,a.state,a.authority)

end IntermediateArtifact

namespace ArtifactRegistry

/-- The list names `root` and what it was made from, and nothing else; all of it is registered,
VALID and authoritative. -/
structure Traced (r : ArtifactRegistry) (root : IntermediateArtifactId)
    (lineage : List (Ref .intermediate)) : Prop where
  reach : ∀ id,id ∈ lineage.map (·.id) ↔ r.lineage.Reach root id
  upheld : ∀ o ∈ lineage,∃ a,r.find o.id=some a ∧ a.state=.valid ∧ a.authority=.authoritative

/-- The artifacts at `ids` become authoritative where they are VALID. -/
def Promotes (ids : List UInt64) (r r' : ArtifactRegistry) : Prop :=
  ∀ id,(r'.find id).map (·.bearing)=
    (r.find id).map fun a => if id.value ∈ ids then a.promoted.bearing else a.bearing

end ArtifactRegistry

namespace Runtime

/-- The session lists what its phases produced, and what that was made from, which was registered
before it. -/
structure Drawn (rt : Runtime) (s : CompilerSession) : Prop where
  keyed : ∀ id a,rt.artifacts.find id=some a → a.id=id
  outputs : ∀ pid p,s.findPhase pid=some p → ∀ o ∈ p.outputs,o.id ∈ s.listed
  inputs : ∀ id ∈ s.listed,∀ i ∈ rt.artifacts.lineage.next id,i ∈ s.listed ∧ i.value < id.value

/-- Nothing the session lists is left over, and nothing of it was withdrawn: all of it went into
something else it lists, the image apart, and is VALID and authoritative, or is yet to be made
authoritative with the phase. -/
structure Tapers (rt : Runtime) (s : CompilerSession) (p : PhaseRecord)
    (image : IntermediateArtifact) : Prop where
  used : ∀ id ∈ s.listed,id ≠ image.id → ∃ user ∈ s.listed,id ∈ rt.artifacts.lineage.next user
  upheld : ∀ id ∈ s.listed,∃ a,rt.artifacts.find id=some a ∧ a.state=.valid ∧
    (a.authority=.authoritative ∨ id ∈ p.outputs.map (·.id))

/-- `c` is recorded between the states, in the record of a session that is registered. -/
def Records (rt t : Runtime) (sid : CompilerSessionId) (c : FinalCandidate) : Prop :=
  ∃ s s',rt.find sid=some s ∧ t.find sid=some s' ∧ s'.candidatePresent ∧ s'.candidate=c ∧
    ¬(s.candidatePresent ∧ s.candidate=c)

end Runtime

/-- The event commits a phase of the session, and records a candidate made of the image. -/
def System.Concludes (sys : System) (e : Event) (sid : CompilerSessionId) (s : CompilerSession)
    (p : PhaseRecord) (image : IntermediateArtifact) (c : FinalCandidate) : Prop :=
  ∃ w run r report,sys.Runs e w run ∧ run.pc=.commit r report ∧ r.session=sid ∧
    sys.rt.find sid=some s ∧ s.findPhase r.phase=some p ∧ p.state ≠ .committed ∧
    Runtime.finalImage sys.rt.artifacts p.outputs=some image ∧
    ((sys.apply e).phase sid r.phase).any (·.state=.committed) ∧
    sys.rt.Records (sys.apply e).rt sid c ∧ c.completeLineage

namespace ArtifactRegistry

variable {r r' r'' : ArtifactRegistry} {ids : List UInt64} {id root : IntermediateArtifactId}

theorem promoted_bearing (a : IntermediateArtifact) : a.promoted.bearing=
    (a.id,a.lineageInputs,a.state,if a.state=.valid then .authoritative else a.authority) := by
  unfold IntermediateArtifact.promoted ArtifactState.isConsumable
  by_cases h : a.state=.valid
  · simp [h,IntermediateArtifact.bearing]
  · simp [h,IntermediateArtifact.bearing]

theorem Promotes.next (h : r.Promotes ids r') : r'.lineage.next id=r.lineage.next id := by
  have hb := congrArg (Option.map fun b => b.2.1.map (·.id)) (h id)
  rw [Option.map_map,Option.map_map] at hb
  have hf : ((fun b : IntermediateArtifactId × List (Ref .intermediate) × ArtifactState ×
      AuthorityState => b.2.1.map (·.id)) ∘ fun a : IntermediateArtifact =>
        if id.value ∈ ids then a.promoted.bearing else a.bearing)=
      fun a => a.lineageInputs.map (·.id) := by
    funext a
    dsimp only [Function.comp_apply]
    split_ifs
    · rw [promoted_bearing]
    · rfl
  rw [hf] at hb
  exact congrArg (·.getD []) hb

theorem Promotes.reach (h : r.Promotes ids r') : r'.lineage.Reach=r.lineage.Reach := by
  have hn : r'.lineage.Names=r.lineage.Names := by
    funext a b
    rw [Graph.Names,Graph.Names,h.next]
  rw [Graph.Reach,Graph.Reach,hn]

/-- What is not promoted keeps the authority it had. -/
theorem Promotes.aside {a' : IntermediateArtifact} (h : r.Promotes ids r') (hid : id.value ∉ ids)
    (ha : r'.find id=some a') : ∃ a,r.find id=some a ∧ a.authority=a'.authority := by
  have hb := h id
  simp only [ha,if_neg hid,Option.map_some] at hb
  obtain ⟨a,ha,he⟩ := Option.map_eq_some_iff.1 hb.symm
  exact ⟨a,ha,congrArg (·.2.2.2) he⟩

theorem Promotes.upheld_iff (h : r.Promotes ids r') :
    (∃ a,r'.find id=some a ∧ a.state=.valid ∧ a.authority=.authoritative) ↔
      ∃ a,r.find id=some a ∧ a.state=.valid ∧ (a.authority=.authoritative ∨ id.value ∈ ids) := by
  have hb := h id
  constructor
  · rintro ⟨a',ha',hs,hu⟩
    rw [ha',Option.map_some] at hb
    have ⟨a,ha,he⟩ := Option.map_eq_some_iff.1 hb.symm
    refine ⟨a,ha,?_⟩
    split_ifs at he with hi
    · rw [promoted_bearing] at he
      have he : a.state=a'.state := congrArg (·.2.2.1) he
      exact ⟨he.trans hs,.inr hi⟩
    · have hstate : a.state=a'.state := congrArg (·.2.2.1) he
      have hauthority : a.authority=a'.authority := congrArg (·.2.2.2) he
      exact ⟨hstate.trans hs,.inl (hauthority.trans hu)⟩
  · rintro ⟨a,ha,hs,hu⟩
    rw [ha,Option.map_some] at hb
    have ⟨a',ha',he⟩ := Option.map_eq_some_iff.1 hb
    refine ⟨a',ha',?_⟩
    split_ifs at he with hi
    · rw [promoted_bearing,if_pos hs] at he
      have hstate : a'.state=a.state := congrArg (·.2.2.1) he
      exact ⟨hstate.trans hs,congrArg (·.2.2.2) he⟩
    · have hstate : a'.state=a.state := congrArg (·.2.2.1) he
      have hauthority : a'.authority=a.authority := congrArg (·.2.2.2) he
      exact ⟨hstate.trans hs,hauthority.trans (hu.resolve_right hi)⟩

end ArtifactRegistry

namespace Runtime

variable {w : World} {r : Reservation} {rt t u : Runtime} {session committed : CompilerSession}
  {phase p : PhaseRecord} {provenance : ProvenanceId} {concluded : Bool}
  {image : IntermediateArtifact} {c : FinalCandidate}

theorem finalImage_mem {outputs : List (Ref .intermediate)}
    (h : finalImage rt.artifacts outputs=some image) :
    ∃ o ∈ outputs,rt.artifacts.find o.id=some image :=
  List.mem_filterMap.1 (List.mem_of_find?_eq_some h)

/-- The list of a candidate is exact where it names the image and the artifacts in it taper to it. -/
theorem traced_iff (hd : rt.Drawn session) (hp : session.findPhase r.phase=some p)
    (hi : finalImage rt.artifacts p.outputs=some image)
    (ht : rt.artifacts.Promotes (p.outputs.map (·.id.value)) t.artifacts) :
    t.artifacts.Traced image.id
      (session.intermediates.insertionSort fun a b => a.id.value ≤ b.id.value) ↔
      rt.Tapers session p image := by
  have ⟨o,ho,ha⟩ := finalImage_mem hi
  have hroot : image.id ∈ session.listed := by
    rw [hd.keyed o.id image ha]
    exact hd.outputs r.phase p hp o ho
  have hmem (id : IntermediateArtifactId) : id ∈ (session.intermediates.insertionSort fun a b =>
      a.id.value ≤ b.id.value).map (·.id) ↔ id ∈ session.listed :=
    ((List.perm_insertionSort _ session.intermediates).map _).mem_iff
  have hnamed := Graph.reach_iff_named (fun id => id.value.toNat) hroot fun id hid i hn => by
    have ⟨hl,hlt⟩ := hd.inputs id hid i hn
    exact ⟨hl,UInt64.lt_iff_toNat_lt.1 hlt⟩
  have hout (id : IntermediateArtifactId) : id.value ∈ p.outputs.map (·.id.value) ↔
      id ∈ p.outputs.map (·.id) := by
    simp only [List.mem_map,StrongId.ext_iff]
  constructor
  · intro h
    refine ⟨hnamed.1 fun id => ?_,?_⟩
    · rw [← hmem,h.reach,ht.reach]
    · intro id hid
      have ⟨o,ho,he⟩ := List.mem_map.1 ((hmem id).2 hid)
      have ⟨a,ha,hs,hu⟩ := ht.upheld_iff.1 (h.upheld o ho)
      subst he
      exact ⟨a,ha,hs,hu.imp_right (hout o.id).1⟩
  · intro h
    refine ⟨fun id => ?_,?_⟩
    · rw [hmem,hnamed.2 h.used,ht.reach]
    · intro o ho
      have ⟨a,ha,hs,hu⟩ := h.upheld o.id ((hmem o.id).1 (List.mem_map_of_mem ho))
      exact ht.upheld_iff.2 ⟨a,ha,hs,hu.imp_right (hout o.id).2⟩

/-- What lineages go by stays as it is. -/
def SameBearings (rt t : Runtime) : Prop :=
  ∀ id,(t.artifacts.find id).map (·.bearing)=(rt.artifacts.find id).map (·.bearing)

instance : IsPreorder Runtime SameBearings where
  refl _ _ := rfl
  trans _ _ _ h h' id := (h' id).trans (h id)

theorem sameBearings_of_eq (h : t.artifacts=rt.artifacts) : SameBearings rt t := fun _ => by rw [h]

theorem modifyArtifact_bearings {f : IntermediateArtifact → IntermediateArtifact}
    (hf : ∀ a,(f a).bearing=a.bearing) (reference : Ref .intermediate) :
    Within SameBearings (modifyArtifact f reference) := by
  intro rt id
  have hw := Table.Rewrites.modify (f := f) (m := rt.artifacts.entries) reference.id.value id.value
  have hfind : (modifyArtifact f reference rt).2.artifacts.find id=
      if id.value ∈ [reference.id.value] then (rt.artifacts.find id).map f else rt.artifacts.find id :=
    hw
  rw [hfind]
  split_ifs
  · rw [Option.map_map]
    exact congrArg (Option.map · _) (funext hf)
  · rfl

theorem release_bearings (phase : PhaseRecord) (provenance : ProvenanceId) :
    Within SameBearings (release phase provenance) := by
  refine Within.get.bind fun _ => Within.bind (Within.forEach ?_ _) fun _ => ?_
  · exact modifyArtifact_bearings fun _ => rfl
  · exact Within.bind (fun _ => sameBearings_of_eq rfl) fun _ _ => sameBearings_of_eq rfl

theorem persist_bearings (session : CompilerSession) : Within SameBearings (persist w session) := by
  intro rt
  unfold persist
  split
  · exact sameBearings_of_eq rfl
  · split <;> exact sameBearings_of_eq rfl

theorem conclude_lineage (h : conclude w session phase rt=(.ok (some c),t)) :
    c.lineage=session.intermediates.insertionSort fun a b => a.id.value ≤ b.id.value := by
  unfold conclude at h
  have ⟨_,_,hg,h⟩ := seq_eq_ok.1 h
  cases hg
  split_ifs at h
  · cases hi : finalImage rt.artifacts phase.outputs with
    | none =>
      rw [hi] at h
      cases h
    | some artifact =>
      rw [hi] at h
      have ⟨_,_,_,h⟩ := seq_eq_ok.1 h
      have ⟨_,_,_,h⟩ := seq_eq_ok.1 h
      cases h
      rfl
  · cases h

theorem committedPhase_lists (session : CompilerSession) (pid : CompilerPhaseId) (commit : CommitId)
    (now : UInt64) : (session.committedPhase pid commit now).intermediates=session.intermediates ∧
      (session.committedPhase pid commit now).candidatePresent=session.candidatePresent ∧
      (session.committedPhase pid commit now).candidate=session.candidate := by
  unfold CompilerSession.committedPhase
  dsimp only
  split <;> exact ⟨rfl,rfl,rfl⟩

/-- The copy a commit publishes has the candidate of the session, or one with the list of the
session for its lineage. -/
theorem stage_candidate (h : stage w r session phase rt=(.ok (provenance,committed,concluded),t)) :
    committed.candidatePresent=session.candidatePresent ∧ committed.candidate=session.candidate ∨
      committed.candidate.lineage=
        session.intermediates.insertionSort fun a b => a.id.value ≤ b.id.value := by
  have ⟨_,_,_,h⟩ := seq_eq_ok.1 h
  have ⟨_,_,_,h⟩ := seq_eq_ok.1 h
  have ⟨commit,_,_,h⟩ := seq_eq_ok.1 h
  have ⟨_,_,_,h⟩ := seq_eq_ok.1 h
  have ⟨candidate,_,hc,h⟩ := seq_eq_ok.1 h
  have ⟨hi,hpresent,hcandidate⟩ := committedPhase_lists session phase.id commit w.now
  cases h
  cases candidate with
  | none => exact .inl ⟨hpresent,hcandidate⟩
  | some c =>
    right
    rw [← hi,← conclude_lineage hc]
    unfold CompilerSession.withCandidate
    dsimp only
    split <;> rfl

theorem stage_promotes (h : stage w r session phase rt=(.ok (provenance,committed,concluded),t)) :
    rt.artifacts.Promotes (phase.outputs.map (·.id.value)) t.artifacts := by
  have ⟨_,u,hu,_,hw⟩ := stage_spec w r session phase rt
  cases h.symm.trans hu
  intro id
  have hi : t.artifacts.find id=_ := hw id.value
  rw [hi]
  split_ifs
  · rw [Option.map_map]
    exact congrArg (Option.map · _) (funext fun a => by
      rw [Function.comp_apply,IntermediateArtifact.staged,ArtifactRegistry.promoted_bearing,
        ArtifactRegistry.promoted_bearing])
  · rfl

/-- A publication leaves the sessions as they are, or puts the copy in the place of the session and
gives the outputs authority. -/
theorem publish_cases (report : ExecutionReport) (session : CompilerSession) (phase : PhaseRecord)
    (rt : Runtime) :
    (publish w r report session phase rt).2.sessions=rt.sessions ∨
      ∃ provenance committed concluded t,
        stage w r session phase rt=(.ok (provenance,committed,concluded),t) ∧
        (publish w r report session phase rt).2.sessions=
          rt.sessions.modify r.session.value (fun _ => committed) ∧
        rt.artifacts.Promotes (phase.outputs.map (·.id.value))
          (publish w r report session phase rt).2.artifacts := by
  have ⟨⟨provenance,committed,concluded⟩,t,ht⟩ := stage_total w r session phase rt
  have hstage := stage_aside w r session phase rt
  rw [ht] at hstage
  have hpersist := persist_aside w committed t
  have hbearings := persist_bearings (w := w) committed t
  unfold publish
  rw [bind_ok ht]
  cases hx : persist w committed t with
  | mk result u =>
    rw [hx] at hpersist hbearings
    have hs : u.sessions=rt.sessions := hpersist.sessions.trans hstage.sessions
    cases result with
    | error e =>
      dsimp only
      rw [bind_error hx]
      exact .inl hs
    | ok _ =>
      right
      refine ⟨provenance,committed,concluded,t,ht,?_⟩
      dsimp only
      rw [bind_ok hx]
      have hm : (Action.modify (·.modifySession r.session fun _ => committed) : Op Unit) u=
        (.ok (),u.modifySession r.session fun _ => committed) := rfl
      rw [bind_ok hm]
      have hr (x : PhaseRunReport) : Within Aside (release phase provenance >>= fun _ => pure x) :=
        (release_aside phase provenance).bind fun _ => .pure _
      have hb (x : PhaseRunReport) :
          Within SameBearings (release phase provenance >>= fun _ => pure x) :=
        (release_bearings phase provenance).bind fun _ => .pure _
      refine ⟨(hr _ _).sessions.trans ?_,?_⟩
      · show u.sessions.modify _ _=_
        rw [hs]
      · intro id
        have hstaged := (hbearings id).trans (stage_promotes ht id)
        exact (hb _ (u.modifySession r.session fun _ => committed) id).trans hstaged

/-- What a commit leaves that turns its phase COMMITTED and records a candidate. -/
theorem commitReserved_records {report : ExecutionReport} {s : CompilerSession}
    (hl : rt.find r.session=some s) (hp : s.findPhase r.phase=some p) (hn : p.state ≠ .committed)
    (hc : ((commitReserved w r report rt).2.phase r.session r.phase).any (·.state=.committed))
    (h : rt.Records (commitReserved w r report rt).2 r.session c) :
    rt.artifacts.Promotes (p.outputs.map (·.id.value)) (commitReserved w r report rt).2.artifacts ∧
      c.lineage=s.intermediates.insertionSort fun a b => a.id.value ≤ b.id.value := by
  have hphase : rt.phase r.session r.phase=some p := by
    rw [Runtime.phase,hl,Option.bind_some,hp]
  obtain ⟨p',hp',hc⟩ := (Option.any_eq_true _ _).1 hc
  have hc := of_decide_eq_true hc
  obtain ⟨_,session,phase,t,hcm,_,_,hr,hv⟩ := commitReserved_entered w r hphase hp' hn hc
  obtain ⟨hl',hp',_⟩ := committable_ok r hcm
  cases hl.symm.trans hl'
  cases hp.symm.trans hp'
  obtain ⟨_,_,ht⟩ := reprobe_ok w r hr
  have hrun : commitReserved w r report rt=publish w r report s p t := by
    unfold commitReserved
    have hget : (Action.get : Op Runtime) rt=(.ok rt,rt) := rfl
    have hcommit : (ofExcept (rt.committable r) : Op _) rt=(.ok (s,p),rt) := by rw [hcm]; rfl
    rw [bind_ok hget,bind_ok hcommit]
    dsimp only
    rw [bind_ok hr]
    have hget : (Action.get : Op Runtime) t=(.ok t,t) := rfl
    rw [bind_ok hget,if_pos hv]
  rw [hrun] at h ⊢
  obtain ⟨s₀,s',hs,hs',hpresent,he,hnew⟩ := h
  cases hl.symm.trans hs
  have hsessions : t.sessions=rt.sessions := by rw [ht]
  have hartifacts : t.artifacts=rt.artifacts := by rw [ht]
  rcases publish_cases (w := w) (r := r) report s p t with hsame | hpub
  · rw [find_of_sessions (hsame.trans hsessions),hl] at hs'
    cases hs'
    exact absurd ⟨hpresent,he⟩ hnew
  · obtain ⟨provenance,committed,concluded,u,hstage,hsessions',hpromotes⟩ := hpub
    rw [hartifacts] at hpromotes
    refine ⟨hpromotes,?_⟩
    have hfind : (publish w r report s p t).2.find r.session=some committed := by
      rw [find,hsessions',Std.ExtTreeMap.getElem?_modify_self,hsessions]
      exact congrArg (Option.map _) hl
    cases hs'.symm.trans hfind
    rw [← he]
    rcases stage_candidate hstage with ⟨hsame,hcandidate⟩ | hlineage
    · exact absurd ⟨hsame ▸ hpresent,hcandidate ▸ he⟩ hnew
    · exact hlineage

end Runtime

namespace System

variable {sys : System} {e : Event} {sid : CompilerSessionId} {s : CompilerSession}
  {p : PhaseRecord} {image : IntermediateArtifact} {c : FinalCandidate}

/-- The lineage a candidate is recorded with is exact, and all of it stands, exactly where the
artifacts the session lists taper to the image. -/
theorem Concludes.traced_iff (h : sys.Concludes e sid s p image c) (hd : sys.rt.Drawn s) :
    (sys.apply e).rt.artifacts.Traced image.id c.lineage ↔ sys.rt.Tapers s p image := by
  have ⟨w,run,r,report,hr,hpc,hsid,hl,hp,hn,hi,hc,hrec,_⟩ := h
  subst hsid
  have hrt := hr.commit hpc
  rw [System.phase,hrt] at hc
  rw [hrt] at hrec
  have ⟨hpromotes,hlineage⟩ := @Runtime.commitReserved_records w r (sys.rt.facing w) p c report s
    hl hp hn hc hrec
  rw [hrt,hlineage]
  exact Runtime.traced_iff hd hp hi hpromotes

end System

end CompilerFabric
