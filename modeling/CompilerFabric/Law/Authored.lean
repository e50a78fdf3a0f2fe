import CompilerFabric.Law.Authority

namespace CompilerFabric

open Base Base.Action

/-- A session that is handed over files each phase under its identity, and those in flight are in
its plan. -/
def Event.charted : Event → Prop
  | .call (.adoptSession session) _ => KeyedById session.phases ∧ session.Charted
  | _ => True

namespace System

variable {sys : System} {e : Event} {w : World} {events : List Event}

/-- The journal takes what the event has it take. -/
def persists (sys : System) (e : Event) : Bool :=
  (sys.apply e).rt.persistFailures=sys.rt.persistFailures

/-- The event commits a phase generation. -/
def Commits (sys : System) (e : Event) (producer : Ref .phase) : Prop :=
  ∃ w run r report p q,sys.Runs e w run ∧ run.pc=.commit r report ∧
    sys.phase r.session r.phase=some p ∧ p.state=.commitReady ∧
    (sys.apply e).phase r.session r.phase=some q ∧ q.state=.committed ∧
    producer=⟨r.phase,r.phaseGeneration⟩ ∧ q.generation=r.phaseGeneration

/-- Artifacts become authoritative by the commit of the generation that produced them, and are
VALID and current as long as they are. -/
def ThroughCommit (sys : System) (events : List Event) : Prop := ∀ n,
  (∀ id a,(sys.run (events.take n)).rt.artifacts.find id=some a → a.authority=.authoritative →
    a.state=.valid ∧ a.current=true ∧ ∃ m e,m<n ∧ events[m]?=some e ∧
      (sys.run (events.take m)).Commits e a.producerPhase) ∧
  ∀ e id a',events[n]?=some e → (sys.run (events.take (n+1))).rt.artifacts.find id=some a' →
    a'.authority=.authoritative →
      (∃ a,(sys.run (events.take n)).rt.artifacts.find id=some a ∧ a.authority=.authoritative) ∨
        (sys.run (events.take n)).Commits e a'.producerPhase

theorem facing_authors {rt t : Runtime} (h : (rt.facing w).Authors t) : rt.Authors t :=
  ⟨Runtime.facing_keeps h.toKeeps,h.silent,fun ha => h.authored ⟨ha.numbered,ha.sound,ha.owns⟩⟩

theorem apply_promotes (he : e.inProcess) (hc : e.charted)
    (ha : sys.rt.Authored) (hk : sys.rt.estate.Keyed) (hj : sys.persists e) :
    (sys.apply e).rt.Authored ∧ ∀ id a',(sys.apply e).rt.artifacts.find id=some a' →
      a'.authority=.authoritative → (∃ a,sys.rt.artifacts.find id=some a ∧
        a.authority=.authoritative ∧ a'.producerPhase=a.producerPhase) ∨
          sys.Commits e a'.producerPhase := by
  have quiet (h : sys.rt.Authors (sys.apply e).rt) : (sys.apply e).rt.Authored ∧
      ∀ id a',(sys.apply e).rt.artifacts.find id=some a' → a'.authority=.authoritative →
        (∃ a,sys.rt.artifacts.find id=some a ∧ a.authority=.authoritative ∧
          a'.producerPhase=a.producerPhase) ∨ sys.Commits e a'.producerPhase :=
    ⟨h.authored ha,fun id a' hf hu => .inl (h.silent id a' hf hu)⟩
  have hturn := @apply_turn sys e he
  generalize ht : (sys.apply e).rt=t at hturn quiet
  cases hturn with
  | idle h => exact quiet h.authors
  | @reserve w run hr hpc =>
    have hauthored := @Runtime.reserve_authored w _ run.session run.phase run.isRetry
      (⟨ha.numbered,ha.sound,ha.owns⟩ : (sys.rt.facing w).Authored)
    refine ⟨hauthored,fun id a' hf hu => .inl ⟨a',?_,hu,rfl⟩⟩
    rwa [Runtime.reserve_artifacts] at hf
  | @record w r report h =>
    exact quiet (facing_authors (Runtime.recordExecution_authors report (sys.rt.facing w)))
  | @create w request hu hcall =>
    exact quiet (facing_authors (Runtime.createSession_authors request (sys.rt.facing w)))
  | @adopt w session hu hcall =>
    subst hcall
    exact quiet (facing_authors (Runtime.adoptSession_authors hc.2 (sys.rt.facing w)))
  | @commit w run r report hr hpc =>
    rcases @Runtime.commitReserved_spec w (sys.rt.facing w) r report with
      h | ⟨session,phase,h⟩
    · exact quiet (Runtime.facing_idles h).authors
    · refine ⟨h.authored ⟨ha.numbered,ha.sound,ha.owns⟩,fun id a' hf hu => ?_⟩
      obtain ⟨a,hfound,hup⟩ := h.elevates.found hf
      rcases hup.authority hu with hold | hmem
      · exact .inl ⟨a,hfound,hold,congrArg (·.producerPhase) hup.made⟩
      obtain ⟨o,ho,hid⟩ := List.mem_map.1 hmem
      obtain rfl : o.id=id := StrongId.ext hid
      obtain ⟨hfind,hphase,hgeneration,_,hready⟩ := Runtime.committable_ok r h.committable
      have hfind : sys.rt.find r.session=some session := hfind
      have hp : sys.rt.phase r.session r.phase=some phase :=
        Option.bind_eq_some_iff.2 ⟨session,hfind,hphase⟩
      have hpid : phase.id=r.phase :=
        StrongId.ext (Runtime.keyed_iff.1 hk r.session.value session hfind r.phase.value phase hphase)
      obtain ⟨b,hb,hproducer⟩ := ha.owns r.session r.phase phase hp (by rw [hready]; rfl) o ho
      cases hfound.symm.trans hb
      obtain ⟨commit,candidate,hset⟩ := h.taken (by
        rw [persists,decide_eq_true_iff,ht] at hj
        exact hj)
      refine .inr ⟨w,run,r,report,phase,phase.committed commit w.now,hr,hpc,hp,hready,?_,?_,?_,?_⟩
      · rw [System.phase,ht,Runtime.phase_modifySession hset,if_pos rfl]
        have hfind : (sys.rt.facing w).find r.session=some session := hfind
        rw [hfind,Option.map_some,Option.bind_some,CompilerSession.findPhase,Runtime.projected_phases]
        have hf := session.findPhase_modifyPhase phase.id r.phase (·.committed commit w.now)
        rw [if_pos hpid,hphase] at hf
        exact hf
      · unfold PhaseRecord.committed
        rw [PhaseRecord.recordTransition_state]
        show PhaseRecord.reach phase.state .committed=.committed
        rw [hready]
        rfl
      · have hmade : a'.producerPhase=a.producerPhase := congrArg (·.producerPhase) hup.made
        rw [hmade,hproducer,hpid,hgeneration]
      · exact (Runtime.committed_stays phase commit w.now).generation.trans hgeneration

/-- What the steps of a run keep. -/
structure Attested (sys : System) (events : List Event) (n : Nat) : Prop where
  staffed : (sys.run (events.take n)).Staffed
  authored : (sys.run (events.take n)).rt.Authored
  keyed : (sys.run (events.take n)).rt.estate.Keyed
  attests : ∀ id a,(sys.run (events.take n)).rt.artifacts.find id=some a → a.authority=.authoritative →
    ∃ m e,m<n ∧ events[m]?=some e ∧ (sys.run (events.take m)).Commits e a.producerPhase

theorem Attested.next {n : Nat} (h : sys.Attested events n) (hn : events[n]?=some e)
    (he : e.inProcess) (hc : e.charted) (hj : (sys.run (events.take n)).persists e) :
    sys.Attested events (n+1) := by
  obtain ⟨hauthored,hpromotes⟩ := apply_promotes he hc h.authored h.keyed hj
  have hkeyed : e.keyed := by
    cases e with
    | call command w =>
      cases command with
      | adoptSession session => exact hc.1
      | _ => trivial
    | _ => trivial
  have hnext : sys.run (events.take (n+1))=(sys.run (events.take n)).apply e := by
    rw [run_take_succ,hn]
  refine ⟨?_,?_,?_,?_⟩
  · rw [hnext]
    exact h.staffed.apply
  · rwa [hnext]
  · rw [hnext]
    exact apply_keyed h.staffed he hkeyed h.keyed
  · intro id a' ha hu
    rw [hnext] at ha
    rcases hpromotes id a' ha hu with ⟨a,ha,hu,hp⟩ | hcommits
    · obtain ⟨m,x,hm,hx,hcommits⟩ := h.attests id a ha hu
      exact ⟨m,x,Nat.lt_succ_of_lt hm,hx,hp ▸ hcommits⟩
    · exact ⟨n,e,Nat.lt_succ_self n,hn,hcommits⟩

/-- In a process that found nothing in its store artifacts become authoritative through commits
only, as long as the sessions handed over to it can be fenced as a whole. -/
theorem through_commit_of_charted {options : RuntimeOptions} {adapters : List Adapter} {file : Bytes}
    {w : World} {events : List Event} (hstore : Runtime.replayed w options file=∅)
    (hp : ∀ e ∈ events,e.inProcess) (hc : ∀ e ∈ events,e.charted)
    (hj : along persists (boot options adapters file w) events) :
    (boot options adapters file w).ThroughCommit events := by
  have hattested (n : Nat) : (boot options adapters file w).Attested events n := by
    induction n with
    | zero =>
      obtain ⟨hsessions,hartifacts⟩ := Runtime.create_bare adapters hstore
      refine ⟨?_,Runtime.authored_bare hsessions hartifacts,Runtime.create_keyed options adapters file,?_⟩
      · intro i started hr
        simp [run,boot] at hr
      · intro id a ha
        have hfind : (boot options adapters file w).rt.artifacts={} := hartifacts
        simp [run,hfind,ArtifactRegistry.find] at ha
    | succ n ih =>
      cases hn : events[n]? with
      | none =>
        have hlen := List.getElem?_eq_none_iff.1 hn
        have hsame : events.take (n+1)=events.take n := by
          rw [List.take_of_length_le hlen,List.take_of_length_le (Nat.le_succ_of_le hlen)]
        refine ⟨hsame ▸ ih.staffed,hsame ▸ ih.authored,hsame ▸ ih.keyed,fun id a ha hu => ?_⟩
        rw [hsame] at ha
        obtain ⟨m,x,hm,hx,hcommits⟩ := ih.attests id a ha hu
        exact ⟨m,x,Nat.lt_succ_of_lt hm,hx,hcommits⟩
      | some e =>
        have hmem := List.mem_of_getElem? hn
        exact ih.next hn (hp e hmem) (hc e hmem) (along_at hj hn)
  intro n
  have h := hattested n
  constructor
  · intro id a ha hu
    obtain ⟨hstate,hcurrent⟩ := h.authored.sound id a ha hu
    exact ⟨hstate,hcurrent,h.attests id a ha hu⟩
  · intro e id a' hn ha hu
    have hmem := List.mem_of_getElem? hn
    rw [run_take_succ,hn] at ha
    rcases (apply_promotes (hp e hmem) (hc e hmem) h.authored h.keyed (along_at hj hn)).2 id a' ha hu with
      ⟨a,ha,hu,_⟩ | hcommits
    · exact .inl ⟨a,ha,hu⟩
    · exact .inr hcommits

/-- The phase generation a run is about to commit. -/
def committing (sys : System) : Event → Option (Ref .phase)
  | .resume index _ => match sys.calls[index]? with
    | some (.phase run) => match run.pc with
      | .commit r _ => some ⟨r.phase,r.phaseGeneration⟩
      | _ => none
    | _ => none
  | _ => none

theorem Commits.committing {producer : Ref .phase} (h : sys.Commits e producer) :
    sys.committing e=some producer := by
  obtain ⟨w,run,r,report,p,q,⟨_,index,he,hcall⟩,hpc,_,_,_,_,hproducer,_⟩ := h
  subst he
  simp only [System.committing,hcall,hpc,hproducer]

/-- An authoritative artifact whose generation no event has committed. -/
theorem not_through_commit {producer : Ref .phase}
    {id : IntermediateArtifactId}
    (hc : along (fun sys e => sys.committing e ≠ some producer) sys events)
    (ha : ((sys.run events).rt.artifacts.find id).any fun a =>
      a.authority=.authoritative ∧ a.producerPhase=producer) : ¬sys.ThroughCommit events := by
  intro h
  obtain ⟨a,ha,hu⟩ := (Option.any_eq_true _ _).1 ha
  obtain ⟨hu,hproducer⟩ := of_decide_eq_true hu
  obtain ⟨_,_,m,e,_,he,hcommits⟩ := (h events.length).1 id a (by rwa [List.take_length]) hu
  have hne := of_decide_eq_true (along_at hc he)
  exact hne (hproducer ▸ hcommits.committing)

end System

namespace Sample

/-- A process that compiles and commits its one phase. -/
def authoring : List Event :=
  [.call (.discoverToolchain family) world,.call (.createSession request) world]++phaseRun

/-- A session whose phase is in flight, is in no plan, and lists the artifact of another session. -/
def borrowing : CompilerSession :=
  { (created.rt.find ⟨1⟩).getD {} with id := ⟨2⟩,plan := {} }.modifyPhase ⟨1⟩ fun p =>
    { p with
      generation := ⟨7⟩
      state := .commitReady
      activeInvocation := ⟨⟨1⟩,⟨1⟩⟩
      outputs := [⟨⟨1⟩,⟨1⟩⟩] }

/-- The session is handed over when the other one is about to commit, and its phase is committed. -/
def borrowed : List Event := authoring.take 11++
  [.call (.adoptSession borrowing) world,.call (.commitPhase ⟨2⟩ ⟨1⟩ ⟨7⟩ ⟨⟨1⟩,⟨1⟩⟩) world]++
    List.replicate 3 (.resume 4 world)

end Sample

namespace System

theorem through_commit_of_authoring :
    (boot Sample.options [Sample.adapter] [] Sample.world).ThroughCommit Sample.authoring ∧
    (((boot Sample.options [Sample.adapter] [] Sample.world).run Sample.authoring).rt.artifacts.find
      ⟨1⟩).any (·.authority=.authoritative) := by
  have hrun : along persists (boot Sample.options [Sample.adapter] [] Sample.world) Sample.authoring ∧
      (((boot Sample.options [Sample.adapter] [] Sample.world).run Sample.authoring).rt.artifacts.find
        ⟨1⟩).any (·.authority=.authoritative) := by decide +kernel
  have hcalm : ∀ e ∈ Sample.authoring,e.inProcess ∧ e.charted := by
    intro e he
    simp only [Sample.authoring,Sample.phaseRun,List.mem_append,List.mem_cons,List.not_mem_nil,or_false,
      List.mem_replicate] at he
    rcases he with (rfl | rfl) | rfl | ⟨_,rfl⟩ <;> exact ⟨trivial,trivial⟩
  exact ⟨through_commit_of_charted rfl (fun e he => (hcalm e he).1) (fun e he => (hcalm e he).2) hrun.1,
    hrun.2⟩

/-- What generation 2 of the phase has not committed becomes authoritative with generation 7. -/
theorem not_through_commit_of_borrowed :
    ¬(boot Sample.options [Sample.adapter] [] Sample.world).ThroughCommit Sample.borrowed :=
  @not_through_commit _ _ ⟨⟨1⟩,⟨2⟩⟩ ⟨1⟩ (by decide +kernel) (by decide +kernel)

end System

end CompilerFabric
