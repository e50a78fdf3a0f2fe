import CompilerFabric.Core.Lineage
import CompilerFabric.Law.Keyed
import CompilerFabric.Law.Sources
import CompilerFabric.Runtime.Turns

namespace CompilerFabric

open Base Base.Action

theorem Table.size_eq {α β : Type} {m : Table α} {m' : Table β}
    (h : ∀ i : UInt64,m'[i]?.isSome=m[i]?.isSome) : m'.size=m.size := by
  have hmem (i : UInt64) : i ∈ m'.keys ↔ i ∈ m.keys := by
    rw [Std.ExtTreeMap.mem_keys,Std.ExtTreeMap.mem_keys,Std.ExtTreeMap.mem_iff_isSome_getElem?,
      Std.ExtTreeMap.mem_iff_isSome_getElem?,h]
  have hperm := (List.perm_ext_iff_of_nodup m'.nodup_keys m.nodup_keys).2 hmem
  rw [← Std.ExtTreeMap.length_keys,← Std.ExtTreeMap.length_keys,hperm.length_eq]

/-- What was registered of an artifact stays and its promises hold; it becomes authoritative only
where that is allowed. -/
structure IntermediateArtifact.Elevated (allowed : Prop) (a a' : IntermediateArtifact) : Prop where
  made : a'.made=a.made
  sound : a.Sound → a'.Sound
  authority : a'.authority=.authoritative → a.authority=.authoritative ∨ allowed

instance {allowed : Prop} : IsPreorder IntermediateArtifact (IntermediateArtifact.Elevated allowed) where
  refl _ := ⟨rfl,fun h => h,.inl⟩
  trans := by
    intro a b c h h'
    refine ⟨h'.made.trans h.made,fun hs => h'.sound (h.sound hs),fun hu => ?_⟩
    rcases h'.authority hu with hu | ho
    · exact h.authority hu
    · exact .inr ho

namespace ArtifactRegistry

variable {r r' : ArtifactRegistry} {ids : List UInt64}

/-- As many identities were drawn as artifacts are registered, and all of them lie below the next. -/
structure Numbered (r : ArtifactRegistry) : Prop where
  counter : r.allocator.counter.toNat=r.entries.size+1
  below : ∀ i : UInt64,r.entries[i]?.isSome → i.toNat<r.allocator.counter.toNat

/-- A registration takes an identity nothing was registered under. -/
theorem Numbered.register {artifact : IntermediateArtifact} {reference : Ref .intermediate}
    (h : r.Numbered) (hr : r.registerArtifact artifact=.ok (reference,r')) :
    r'.Numbered ∧ r.find reference.id=none ∧ ∀ id,r'.find id=if id=reference.id then
      some { artifact with id := reference.id,generation := .initial } else r.find id := by
  unfold registerArtifact at hr
  split at hr
  · cases hr
  next hroom =>
  have hcount := h.counter
  have hcap : r.entries.size<65536 := Nat.lt_of_not_le hroom
  have hzero : r.allocator.counter ≠ 0 := by
    intro he
    rw [he] at hcount
    simp at hcount
  have hmax : r.allocator.counter ≠ IdAllocator.kMax := by
    intro he
    rw [he] at hcount
    simp [IdAllocator.kMax] at hcount
    omega
  have hnext : r.allocator.next=(⟨r.allocator.counter⟩,⟨r.allocator.counter+1⟩) := by
    simp [IdAllocator.next,hzero,hmax]
  have hfresh : r.entries[r.allocator.counter]?=none := by
    cases hf : r.entries[r.allocator.counter]? with
    | none => rfl
    | some a => exact absurd (h.below _ (by rw [hf]; rfl)) (Nat.lt_irrefl _)
  have hnot : ¬r.allocator.counter ∈ r.entries := by
    rw [Std.ExtTreeMap.mem_iff_isSome_getElem?,hfresh]
    simp
  rw [hnext] at hr
  cases hr
  have hsucc : (r.allocator.counter+1).toNat=r.allocator.counter.toNat+1 := by
    rw [UInt64.toNat_add]
    have : r.allocator.counter.toNat<2^64-1 := by omega
    simp
    omega
  refine ⟨⟨?_,?_⟩,hfresh,?_⟩
  · show (r.allocator.counter+1).toNat=_
    rw [hsucc,Std.ExtTreeMap.size_insertIfNew,if_neg hnot,hcount]
  · intro i hi
    show i.toNat<(r.allocator.counter+1).toNat
    rw [hsucc]
    rw [Std.ExtTreeMap.getElem?_insertIfNew] at hi
    split at hi
    · next hk =>
      have hk : r.allocator.counter=i := Std.LawfulEqCmp.eq_of_compare hk.1
      rw [← hk]
      exact Nat.lt_succ_self _
    · exact Nat.lt_succ_of_lt (h.below i hi)
  · intro id
    show (r.entries.insertIfNew _ _)[id.value]?=_
    rw [Std.ExtTreeMap.getElem?_insertIfNew]
    by_cases hid : id=⟨r.allocator.counter⟩
    · subst hid
      rw [if_pos ⟨Std.ReflCmp.compare_self,hnot⟩,if_pos rfl]
    · rw [if_neg hid,if_neg]
      · rfl
      · rintro ⟨hc,_⟩
        exact hid (StrongId.ext (Std.LawfulEqCmp.eq_of_compare hc).symm)

/-- What was registered stays as it was made and keeps its promises; only artifacts at `ids` become
authoritative. -/
structure Elevates (ids : List UInt64) (r r' : ArtifactRegistry) : Prop where
  entries : ∀ i : UInt64,Option.Rel (IntermediateArtifact.Elevated (i ∈ ids)) r.entries[i]? r'.entries[i]?
  allocator : r'.allocator=r.allocator

instance : IsPreorder ArtifactRegistry (Elevates ids) where
  refl _ := ⟨fun _ => Std.Refl.refl _,rfl⟩
  trans _ _ _ h h' := ⟨fun i => IsTrans.trans _ _ _ (h.entries i) (h'.entries i),
    h'.allocator.trans h.allocator⟩

theorem Quiet.elevates (h : r.Quiet r') : r.Elevates ids r' :=
  ⟨fun i => rel_mono (h.entries i) fun _ _ hq => ⟨hq.made,hq.sound,fun hu => .inl (hq.authority hu)⟩,
    h.allocator⟩

theorem Elevates.numbered (h : r.Elevates ids r') (hn : r.Numbered) : r'.Numbered := by
  have hsome (i : UInt64) : r'.entries[i]?.isSome=r.entries[i]?.isSome := by
    have hi := h.entries i
    generalize r.entries[i]?=x,r'.entries[i]?=y at hi
    cases hi <;> rfl
  refine ⟨?_,?_⟩
  · rw [h.allocator,hn.counter,Table.size_eq hsome]
  · intro i hi
    rw [h.allocator]
    exact hn.below i (hsome i ▸ hi)

theorem Elevates.find {id : IntermediateArtifactId} {a : IntermediateArtifact}
    (h : r.Elevates ids r') (ha : r.find id=some a) : ∃ a',r'.find id=some a' ∧ a'.made=a.made := by
  have hi := h.entries id.value
  have ha : r.entries[id.value]?=some a := ha
  rw [ha] at hi
  cases hf : r'.entries[id.value]? with
  | none =>
    rw [hf] at hi
    cases hi
  | some a' =>
    rw [hf] at hi
    cases hi with
    | some hi => exact ⟨a',hf,hi.made⟩

theorem Elevates.found {id : IntermediateArtifactId} {a' : IntermediateArtifact}
    (h : r.Elevates ids r') (ha : r'.find id=some a') :
    ∃ a,r.find id=some a ∧ a.Elevated (id.value ∈ ids) a' := by
  have hi := h.entries id.value
  have ha : r'.entries[id.value]?=some a' := ha
  rw [ha] at hi
  cases hf : r.entries[id.value]? with
  | none =>
    rw [hf] at hi
    cases hi
  | some a =>
    rw [hf] at hi
    cases hi with
    | some hi => exact ⟨a,hf,hi⟩

theorem found_of_register {artifact a : IntermediateArtifact} {reference : Ref .intermediate}
    {id : IntermediateArtifactId} (hr : r.registerArtifact artifact=.ok (reference,r'))
    (ha : r'.find id=some a) :
    a={ artifact with id := reference.id,generation := .initial } ∨ r.find id=some a := by
  unfold registerArtifact at hr
  split at hr
  · cases hr
  · cases hr
    rcases Table.of_insertIfNew ha with ⟨_,he⟩ | ha
    · exact .inl he.symm
    · exact .inr ha

end ArtifactRegistry

theorem PhaseRecord.recordTransition_outputs (p : PhaseRecord) (next : PhaseState) (reason : Bytes)
    (now : UInt64) : (p.recordTransition next reason now).outputs=p.outputs := by
  obtain ⟨_,_,h,_⟩ := p.recordTransition_frame next reason now
  rw [h]

/-- Of a phase in flight the generation and the outputs are as they were. -/
structure PhaseRecord.Continues (p q : PhaseRecord) : Prop where
  flight : q.state.inFlight → p.state.inFlight
  id : q.id=p.id
  generation : q.generation=p.generation
  outputs : q.outputs=p.outputs

theorem PhaseRecord.Quiet.continues {p q : PhaseRecord} (h : p.Quiet q) : p.Continues q :=
  ⟨h.flight,congrArg (·.1) h.binding,h.generation,congrArg (·.1) h.production⟩

namespace CompilerSession

/-- The phases in flight are in the plan. -/
def Charted (s : CompilerSession) : Prop :=
  ∀ (k : UInt64) p,s.phases[k]?=some p → p.state.inFlight → (⟨k⟩ : CompilerPhaseId) ∈ s.plan.order

end CompilerSession

namespace Runtime

variable {w : World} {rt t : Runtime} {r : Reservation} {sid : CompilerSessionId}
  {pid : CompilerPhaseId}

/-- What the phase has produced is registered as its generation's. -/
def Owns (rt : Runtime) (p : PhaseRecord) : Prop :=
  ∀ o ∈ p.outputs,∃ a,rt.artifacts.find o.id=some a ∧ a.producerPhase=⟨p.id,p.generation⟩

/-- Authoritative artifacts keep their promises, and phases in flight have produced what they list. -/
structure Authored (rt : Runtime) : Prop where
  numbered : rt.artifacts.Numbered
  sound : ∀ id a,rt.artifacts.find id=some a → a.Sound
  owns : ∀ sid pid p,rt.phase sid pid=some p → p.state.inFlight → rt.Owns p

theorem Owns.continues {p q : PhaseRecord} (h : rt.Owns p) (hc : p.Continues q)
    (ha : ∀ id a,rt.artifacts.find id=some a → ∃ a',t.artifacts.find id=some a' ∧
      a'.producerPhase=a.producerPhase) : t.Owns q := by
  intro o ho
  rw [hc.outputs] at ho
  obtain ⟨a,hf,hp⟩ := h o ho
  obtain ⟨a',hf',hp'⟩ := ha o.id a hf
  exact ⟨a',hf',by rw [hp',hp,hc.id,hc.generation]⟩

theorem Authored.elevate {ids : List UInt64} (h : rt.Authored)
    (ha : rt.artifacts.Elevates ids t.artifacts)
    (hp : ∀ sid pid q,t.phase sid pid=some q → q.state.inFlight →
      (∃ p,rt.phase sid pid=some p ∧ p.Continues q) ∨ q.outputs=[]) : t.Authored := by
  refine ⟨ha.numbered h.numbered,?_,?_⟩
  · intro id a' hf
    obtain ⟨a,hf,he⟩ := ha.found hf
    exact he.sound (h.sound id a hf)
  · intro sid pid q hq hflight
    rcases hp sid pid q hq hflight with ⟨p,hp,hc⟩ | he
    · refine (h.owns sid pid p hp (hc.flight hflight)).continues hc fun id a hf => ?_
      obtain ⟨a',hf',hm⟩ := ha.find hf
      exact ⟨a',hf',congrArg (·.producerPhase) hm⟩
    · intro o ho
      rw [he] at ho
      cases ho

theorem Idles.phase (h : rt.Idles t) {q : PhaseRecord} (hq : t.phase sid pid=some q) :
    ∃ p,rt.phase sid pid=some p ∧ p.Quiet q := by
  obtain ⟨s',hs',hq⟩ := Option.bind_eq_some_iff.1 hq
  have hi := h.sessions sid.value
  have hs' : t.sessions[sid.value]?=some s' := hs'
  rw [hs'] at hi
  cases hs : rt.sessions[sid.value]? with
  | none =>
    rw [hs] at hi
    cases hi
  | some s =>
    rw [hs] at hi
    cases hi with
    | some he =>
      obtain ⟨p,hp,hk⟩ := he.before hq
      exact ⟨p,Option.bind_eq_some_iff.2 ⟨s,hs,hp⟩,hk⟩

theorem Idles.authored (h : rt.Idles t) (ha : rt.Authored) : t.Authored := by
  refine @Authored.elevate _ _ [] ha h.artifacts.elevates fun sid pid q hq _ => ?_
  obtain ⟨p,hp,hk⟩ := h.phase hq
  exact .inl ⟨p,hp,hk.continues⟩

/-- No artifact becomes authoritative, and what was in order stays so. -/
structure Authors (rt t : Runtime) : Prop
    extends Keeps anyState PhaseRecord.Moves rt t where
  silent : ∀ id a',t.artifacts.find id=some a' → a'.authority=.authoritative →
    ∃ a,rt.artifacts.find id=some a ∧ a.authority=.authoritative ∧
      a'.producerPhase=a.producerPhase
  authored : rt.Authored → t.Authored

instance : IsPreorder Runtime Authors where
  refl rt := ⟨Std.Refl.refl rt,fun _ a ha hu => ⟨a,ha,hu,rfl⟩,fun h => h⟩
  trans := by
    intro rt t u h h'
    refine ⟨IsTrans.trans _ _ _ h.toKeeps h'.toKeeps,?_,fun ha => h'.authored (h.authored ha)⟩
    intro id a'' ha hu
    obtain ⟨a',ha,hu,hp'⟩ := h'.silent id a'' ha hu
    obtain ⟨a,ha,hu,hp⟩ := h.silent id a' ha hu
    exact ⟨a,ha,hu,hp'.trans hp⟩

theorem silent_of_elevates (h : rt.artifacts.Elevates [] t.artifacts) {id : IntermediateArtifactId}
    {a' : IntermediateArtifact} (ha : t.artifacts.find id=some a') (hu : a'.authority=.authoritative) :
    ∃ a,rt.artifacts.find id=some a ∧ a.authority=.authoritative ∧
      a'.producerPhase=a.producerPhase := by
  obtain ⟨a,hf,he⟩ := h.found ha
  rcases he.authority hu with hu | hm
  · exact ⟨a,hf,hu,congrArg (·.producerPhase) he.made⟩
  · cases hm

theorem Idles.authors (h : rt.Idles t) : rt.Authors t :=
  ⟨(h.mono (fun _ _ _ h => h) fun _ _ h => h.toMoves).keeps,
    fun _ _ => silent_of_elevates h.artifacts.elevates,h.authored⟩

theorem authors_of_within {σ : UInt64 → SessionState → SessionState → Prop} {α : Type} {x : Op α}
    (h : Within (Evolves σ PhaseRecord.Quiet) x) : Within Authors x :=
  h.mono fun _ _ h => h.idles.authors

/-- A write to sessions only, which starts no attempt and lists no output. -/
theorem Authors.write (hk : Keeps anyState PhaseRecord.Moves rt t)
    (ha : t.artifacts=rt.artifacts) (hp : rt.Authored → ∀ sid pid q,t.phase sid pid=some q →
      q.state.inFlight → ∃ p,rt.phase sid pid=some p ∧ p.Continues q) : Authors rt t := by
  refine ⟨hk,?_,?_⟩
  · intro id a hf hu
    exact ⟨a,ha ▸ hf,hu,rfl⟩
  · intro h
    refine @Authored.elevate _ _ [] h ?_ fun sid pid q hq hf => .inl (hp h sid pid q hq hf)
    rw [ha]
    exact Std.Refl.refl _

/-- A write to one phase that leaves its outputs. -/
theorem modifyPhase_authors {f : PhaseRecord → PhaseRecord} (hm : ∀ p,PhaseRecord.Moves p (f p))
    (ho : ∀ p,(f p).outputs=p.outputs) :
    Authors rt (rt.modifyPhase sid pid f) := by
  refine .write (modifyPhase_keeps sid pid hm rt) rfl fun _ who q p' hp' _ => ?_
  have hp' : (rt.modifyPhase sid pid f).phase who q=some p' := hp'
  rw [phase_modifySession (rfl : (rt.modifyPhase sid pid f).sessions=_)] at hp'
  split at hp'
  · next hs =>
    subst hs
    obtain ⟨s',hs',hp'⟩ := Option.bind_eq_some_iff.1 hp'
    obtain ⟨s,hs,he⟩ := Option.map_eq_some_iff.1 hs'
    subst he
    have hf := s.findPhase_modifyPhase pid q f
    rw [hp'] at hf
    split at hf
    · obtain ⟨p,hp,he⟩ := Option.map_eq_some_iff.1 hf.symm
      subst he
      have hmoves := hm p
      exact ⟨p,Option.bind_eq_some_iff.2 ⟨s,hs,hp⟩,hmoves.flight,congrArg (·.1) hmoves.binding,
        hmoves.generation,ho p⟩
    · exact ⟨p',Option.bind_eq_some_iff.2 ⟨s,hs,hf.symm⟩,fun h => h,rfl,rfl,rfl⟩
  · exact ⟨p',hp',fun h => h,rfl,rfl,rfl⟩

section Record

variable {phase : PhaseRecord}

/-- The phase a completion is recorded for is still the one that was looked up. -/
def Concerns (r : Reservation) (phase : PhaseRecord) (rt : Runtime) : Prop :=
  ∃ p,rt.phase r.session r.phase=some p ∧ p.id=phase.id ∧ p.generation=phase.generation

theorem Concerns.authors (hc : Concerns r phase rt) (h : rt.Authors t) : Concerns r phase t := by
  obtain ⟨p,hp,hid,hg⟩ := hc
  obtain ⟨q,hq,hm⟩ := h.toKeeps.phase hp
  exact ⟨q,hq,(congrArg (·.1) hm.binding).trans hid,hm.generation.trans hg⟩

abbrev AuthorsFor (r : Reservation) (phase : PhaseRecord) {α : Type} (x : Op α) : Prop :=
  WithinFrom (Concerns r phase) Authors x

theorem AuthorsFor.bind {α β : Type} {x : Op α} {f : α → Op β} (hx : AuthorsFor r phase x)
    (hf : ∀ a,AuthorsFor r phase (f a)) : AuthorsFor r phase (x >>= f) :=
  WithinFrom.bind (fun _ _ h hc => hc.authors h) hx hf

/-- An output is registered as what the phase, as it was looked up, has produced. -/
theorem registerOutput_authors (session : CompilerSession) (output : OutputDescriptor) :
    AuthorsFor r phase (registerOutput r session phase output) := by
  intro rt hc
  have hkeeps : Keeps anyState PhaseRecord.Moves rt
      (registerOutput r session phase output rt).2 := registerOutput_keeps r session phase output rt
  cases hr : rt.artifacts.registerArtifact (candidateArtifact session phase r.invocation output) with
  | error e =>
    have hx : registerArtifact (candidateArtifact session phase r.invocation output) rt=(.error e,rt) := by
      rw [registerArtifact,hr]
    rw [registerOutput,bind_error hx]
    exact Std.Refl.refl rt
  | ok found =>
    obtain ⟨reference,artifacts⟩ := found
    have hx : registerArtifact (candidateArtifact session phase r.invocation output) rt=
        (.ok reference,{ rt with artifacts }) := by
      rw [registerArtifact,hr]
    rw [registerOutput,bind_ok hx] at hkeeps ⊢
    refine ⟨hkeeps,?_,?_⟩
    · intro id a' ha hu
      rcases ArtifactRegistry.found_of_register hr ha with he | hf
      · rw [he] at hu
        cases hu
      · exact ⟨a',hf,hu,rfl⟩
    · intro h
      obtain ⟨hnumbered,hnone,hfind⟩ := h.numbered.register hr
      have grown (id : IntermediateArtifactId) (a : IntermediateArtifact)
          (ha : rt.artifacts.find id=some a) : artifacts.find id=some a := by
        rw [hfind,if_neg]
        · exact ha
        · rintro rfl
          rw [hnone] at ha
          cases ha
      have owned {p : PhaseRecord} (ho : rt.Owns p) (o : Ref .intermediate) (hm : o ∈ p.outputs) :
          ∃ a,artifacts.find o.id=some a ∧ a.producerPhase=⟨p.id,p.generation⟩ := by
        obtain ⟨a,ha,hp⟩ := ho o hm
        exact ⟨a,grown o.id a ha,hp⟩
      refine ⟨hnumbered,?_,?_⟩
      · intro id a ha
        rcases ArtifactRegistry.found_of_register hr ha with he | hf
        · rw [he]
          rintro ⟨⟩
        · exact h.sound id a hf
      · intro sid pid q hq hflight
        have hq : (rt.modifySession r.session fun s => { s.modifyPhase r.phase fun p =>
            { p with outputs := p.outputs++[reference] } with
          intermediates := s.intermediates++[reference] }).phase sid pid=some q := hq
        rw [phase_modifySession (rfl : (rt.modifySession r.session _).sessions=_)] at hq
        split at hq
        · next hs =>
          subst hs
          obtain ⟨s',hs',hq⟩ := Option.bind_eq_some_iff.1 hq
          obtain ⟨s,hs,he⟩ := Option.map_eq_some_iff.1 hs'
          subst he
          have hf := s.findPhase_modifyPhase r.phase pid fun p =>
            { p with outputs := p.outputs++[reference] }
          have hq : (s.modifyPhase r.phase fun p =>
            { p with outputs := p.outputs++[reference] }).findPhase pid=some q := hq
          rw [hq] at hf
          split at hf
          · next hpid =>
            subst hpid
            obtain ⟨p,hp,he⟩ := Option.map_eq_some_iff.1 hf.symm
            subst he
            have hp : rt.phase r.session r.phase=some p := Option.bind_eq_some_iff.2 ⟨s,hs,hp⟩
            obtain ⟨p',hp',hid,hg⟩ := hc
            cases hp.symm.trans hp'
            intro o ho
            rcases List.mem_append.1 ho with ho | ho
            · exact owned (h.owns _ _ p hp hflight) o ho
            · cases List.mem_singleton.1 ho
              refine ⟨_,(hfind reference.id).trans (if_pos rfl),?_⟩
              show (⟨phase.id,phase.generation⟩ : Ref .phase)=⟨p.id,p.generation⟩
              rw [hid,hg]
          · have hp : rt.phase r.session pid=some q := Option.bind_eq_some_iff.2 ⟨s,hs,hf.symm⟩
            exact owned (h.owns _ _ q hp hflight)
        · exact owned (h.owns _ _ q hq hflight)

/-- A write to one phase. -/
theorem writePhase_authors {f : PhaseRecord → PhaseRecord} (hm : ∀ p,PhaseRecord.Moves p (f p))
    (ho : ∀ p,(f p).outputs=p.outputs) :
    AuthorsFor r phase (modify (·.modifyPhase sid pid f) : Op Unit) :=
  .of_within fun _ => modifyPhase_authors hm ho

theorem idle_authors {α : Type} {x : Op α} (h : Within (Evolves (fun _ => Eq) PhaseRecord.Quiet) x) :
    AuthorsFor r phase x :=
  .of_within (authors_of_within h)

theorem noteCompletion_authors (report : ExecutionReport) :
    AuthorsFor r phase (noteCompletion r report) :=
  .of_within fun _ => .write (Aside.keeps (.note rfl rfl)) rfl
    fun _ _ _ q hq _ => ⟨q,hq,fun h => h,rfl,rfl,rfl⟩

theorem digestOutputs_authors : AuthorsFor r phase (digestOutputs r) := by
  refine .of_within fun rt => ?_
  show Authors rt (rt.modifyPhase r.session r.phase _)
  refine modifyPhase_authors (fun _ => ?_) fun _ => rfl
  exact .note rfl

theorem recordExecution_authors (report : ExecutionReport) :
    Within Authors (recordExecution w r report) := by
  intro rt
  refine Within.get_at (Within.ofExcept_at fun (session,phase) hr => ?_)
  have hc : Concerns r phase rt := by
    simp only [recordable,do_eq_ok,requireSession_ok,requirePhase_ok] at hr
    obtain ⟨s,hs,p,hp,_,_,_,_,_,_,he⟩ := hr
    cases he
    exact ⟨phase,Option.bind_eq_some_iff.2 ⟨_,hs,hp⟩,rfl,rfl⟩
  refine AuthorsFor.bind (idle_authors (modifyPhase_within _ _ fun p =>
    p.attemptReported_quiet r report)) (fun _ => ?_) rt hc
  refine AuthorsFor.bind (idle_authors (addDiagnostics_within _)) fun stored => ?_
  refine AuthorsFor.bind (writePhase_authors (fun _ => .note rfl) fun _ => rfl) fun _ => ?_
  refine AuthorsFor.bind (noteCompletion_authors report) fun _ => ?_
  split
  · refine AuthorsFor.bind (idle_authors (modifyPhase_within _ _ fun p => p.produced_quiet _ r))
      fun _ => ?_
    refine AuthorsFor.bind (WithinFrom.forEach (fun _ _ h hc => hc.authors h) fun output _ =>
      registerOutput_authors session output) fun _ => ?_
    refine AuthorsFor.bind digestOutputs_authors fun _ => ?_
    refine AuthorsFor.bind (idle_authors (modifySession_within _ fun s => touched_evolves w.now
      (s.modifyPhase_evolves _ fun p => p.recordTransition_quiet _ _ (by decide) (by decide)))) fun _ => ?_
    exact idle_authors (persistSession_within w _)
  · refine AuthorsFor.bind (idle_authors (modifySession_within _ fun s => touched_evolves w.now
      (s.modifyPhase_evolves _ fun p => p.executionFailed_quiet _ r report))) fun _ => ?_
    exact idle_authors (persistSession_within w _)

end Record

section Insert

theorem insert_authors {session : CompilerSession}
    (hp : ∀ (k : UInt64) p,session.phases[k]?=some p → p.state.inFlight=false) (k : UInt64) :
    Authors rt { rt with sessions := rt.sessions.insertIfNew k session } := by
  refine .write (insert_keeps rt k session) rfl fun _ sid pid q hq hflight => ?_
  obtain ⟨s,hs,hq'⟩ := Option.bind_eq_some_iff.1 hq
  rcases Table.of_insertIfNew (hs : (rt.sessions.insertIfNew k session)[sid.value]?=some s) with
    ⟨_,rfl⟩ | hs
  · rw [hp pid.value q hq'] at hflight
    cases hflight
  · exact ⟨q,Option.bind_eq_some_iff.2 ⟨s,hs,hq'⟩,fun h => h,rfl,rfl,rfl⟩

theorem createSession_authors (request : CompileRequest) :
    Within Authors (createSession w request) := by
  refine (authors_of_within (sessionParts_within w request (σ := fun _ => Eq))).bind fun parts => ?_
  refine Within.get.bind fun rt => ?_
  refine (authors_of_within (persist_within w _ (σ := fun _ => Eq))).bind fun _ => ?_
  refine Within.bind (fun rt => insert_authors ?_ _) fun _ => ?_
  · intro k p hp
    obtain ⟨_,_,_,_,he⟩ := @newSession_phase _ _ _ _ ⟨k⟩ _ hp
    rw [he]
    rfl
  · exact (authors_of_within (recordEvidence_within (σ := fun _ => Eq))).bind fun _ => .pure _

/-- A phase that was fenced is no longer in flight. -/
theorem fencePhase_landed {reason : Bytes} {session fenced : CompilerSession} {p : PhaseRecord}
    (h : fencePhase w reason session pid rt=(.ok fenced,t)) (hp : fenced.findPhase pid=some p) :
    p.state.inFlight=false := by
  unfold fencePhase at h
  cases hs : session.findPhase pid with
  | none =>
    rw [hs] at h
    cases h
    rw [hs] at hp
    cases hp
  | some phase =>
    rw [hs] at h
    dsimp only at h
    split at h
    · next hc =>
      cases h
      cases hs.symm.trans hp
      revert hc
      cases p.state <;> decide
    · cases h
      have hf := session.findPhase_modifyPhase pid pid (·.fencedInFlight reason w.now)
      rw [if_pos rfl,hs] at hf
      cases hp.symm.trans hf
      show PhaseState.inFlight (PhaseRecord.recordTransition _ _ _ _).state=false
      rw [PhaseRecord.recordTransition_state]
      show (PhaseRecord.reach phase.state .fenced).inFlight=false
      cases phase.state <;> decide

theorem fencePhases_landed {reason : Bytes} {order : List CompilerPhaseId}
    {session fenced : CompilerSession} {p : PhaseRecord}
    (h : fencePhases w reason order session rt=(.ok fenced,t)) (hm : pid ∈ order)
    (hp : fenced.findPhase pid=some p) : p.state.inFlight=false := by
  induction order generalizing session rt with
  | nil => cases hm
  | cons id rest ih =>
    obtain ⟨s,u,h₁,h₂⟩ := seq_eq_ok.1 h
    rcases List.mem_cons.1 hm with rfl | hm
    · have he : CompilerSession.Evolves Eq PhaseRecord.Quiet s fenced := fencePhases_evolves w reason rest h₂
      obtain ⟨q,hq,hk⟩ := he.before hp
      have hl := fencePhase_landed h₁ hq
      cases hf : p.state.inFlight with
      | false => rfl
      | true =>
        rw [hk.flight hf] at hl
        cases hl
    · exact ih h₂ hm

theorem adoptSession_authors {session : CompilerSession} (hplan : session.Charted) :
    Within Authors (adoptSession w session) := by
  refine Within.get.bind fun rt => ?_
  refine (Within.ofExcept _).bind fun _ => (Within.ofExcept _).bind fun _ => ?_
  refine Within.bind (fun rt => ?_) fun _ => ?_
  · have h : rt.Idles { rt with sessionIds := rt.sessionIds.observe session.id } :=
      .aside rfl rfl rfl rfl rfl
    exact h.authors
  intro t
  refine Within.bind_at (authors_of_within (fencePhases_within w _ _ _ (σ := fun _ => Eq)) t)
    fun fenced u hu => ?_
  have hlanded (k : UInt64) (p : PhaseRecord)
      (hp : (recovered fenced rt.epoch w.now).phases[k]?=some p) : p.state.inFlight=false := by
    have hp : fenced.findPhase ⟨k⟩=some p := by
      unfold recovered at hp
      dsimp only at hp
      split at hp <;> exact hp
    cases hf : p.state.inFlight with
    | false => rfl
    | true =>
      have he : CompilerSession.Evolves Eq PhaseRecord.Quiet session fenced := fencePhases_evolves w _ _ hu
      obtain ⟨q,hq,hk⟩ := he.before hp
      exact (fencePhases_landed hu (hplan k q hq (hk.flight hf)) hp).symm.trans hf |>.symm
  refine (authors_of_within (persist_within w _ (σ := fun _ => Eq))).bind (fun _ => ?_) u
  exact Within.bind (fun rt => insert_authors hlanded _) fun _ => .pure _

end Insert

section Commit

/-- Only artifacts at `ids` become authoritative. -/
def Elevates (ids : List UInt64) (rt t : Runtime) : Prop := rt.artifacts.Elevates ids t.artifacts

instance {ids : List UInt64} : IsPreorder Runtime (Elevates ids) where
  refl rt := Std.Refl.refl rt.artifacts
  trans _ _ _ h h' := IsTrans.trans (r := ArtifactRegistry.Elevates ids) _ _ _ h h'

variable {ids : List UInt64}

theorem elevates_of_same {α : Type} {x : Op α} (h : Within SameArtifacts x) :
    Within (Elevates ids) x := by
  refine h.mono fun rt t h => ?_
  have h : t.artifacts=rt.artifacts := h
  rw [Elevates,h]
  exact Std.Refl.refl rt.artifacts

theorem modifyArtifact_elevates {f : IntermediateArtifact → IntermediateArtifact}
    (hf : ∀ a : IntermediateArtifact,a.Elevated False (f a)) (reference : Ref .intermediate) :
    Within (Elevates ids) (modifyArtifact f reference) := by
  intro rt
  refine ⟨Table.rel_modify (P := fun i => IntermediateArtifact.Elevated (i ∈ ids)) _ _ fun a _ => ?_,rfl⟩
  have h := hf a
  exact ⟨h.made,h.sound,fun hu => (h.authority hu).imp_right False.elim⟩

theorem promote_elevates {reference : Ref .intermediate} (hm : reference.id.value ∈ ids) :
    Within (Elevates ids) (promote reference) := by
  intro rt
  show rt.artifacts.Elevates ids (rt.artifacts.setAuthority reference.id .authoritative).1
  unfold ArtifactRegistry.setAuthority
  cases ha : rt.artifacts.find reference.id with
  | none => exact Std.Refl.refl rt.artifacts
  | some a =>
    dsimp only
    split
    · exact Std.Refl.refl rt.artifacts
    · next hc =>
      refine ⟨Table.rel_modify (P := fun i => IntermediateArtifact.Elevated (i ∈ ids)) _ _
        fun b hb => ⟨rfl,fun _ _ => ⟨?_,by simp⟩,fun _ => .inr hm⟩,rfl⟩
      cases ha.symm.trans hb
      simpa [ArtifactState.isConsumable] using hc

theorem persist_artifacts (session : CompilerSession) : Within SameArtifacts (persist w session) := by
  intro rt
  cases hx : persist w session rt with
  | mk result t =>
    obtain ⟨_,_,ht⟩ := persist_frame w hx
    rw [ht]
    rfl

theorem publish_elevates (report : ExecutionReport) (session : CompilerSession)
    (phase : PhaseRecord) :
    Within (Elevates (phase.outputs.map (·.id.value))) (publish w r report session phase) := by
  have same {α : Type} {x : Op α} (h : Within SameArtifacts x) :
      Within (Elevates (phase.outputs.map (·.id.value))) x := elevates_of_same h
  refine Within.bind ?_ fun (provenance,committed,concluded) => ?_
  · refine Within.bind (same fun _ => rfl) fun provenance => ?_
    refine Within.bind (Within.forEach (fun _ => ?_) _) fun _ => ?_
    · refine modifyArtifact_elevates (fun _ => ?_) _
      exact ⟨rfl,fun h => h,.inl⟩
    refine Within.bind (same fun _ => rfl) fun commit => ?_
    refine Within.bind (fun rt => ?_) fun _ => (same (conclude_artifacts w _ _)).bind fun _ => .pure _
    refine WithinFrom.forEach (I := fun _ => True) (fun _ _ _ _ => trivial) (fun o ho => ?_) rt trivial
    exact .of_within (promote_elevates (List.mem_map_of_mem ho))
  · refine (same (persist_artifacts committed)).bind fun _ => ?_
    refine Within.bind (same fun _ => rfl) fun _ => ?_
    refine Within.bind ?_ fun _ => .pure _
    refine Within.get.bind fun rt => ?_
    refine Within.bind (Within.forEach (fun _ => ?_) _) fun _ => ?_
    · refine modifyArtifact_elevates (fun _ => ?_) _
      exact ⟨rfl,fun h => h,.inl⟩
    exact Within.bind (same fun _ => rfl) fun _ => same fun _ => rfl

theorem committed_continues (p : PhaseRecord) (commit : CommitId) (now : UInt64) :
    p.Continues (p.committed commit now) := by
  have h := committed_stays p commit now
  refine ⟨h.flight,congrArg (·.1) h.binding,h.generation,?_⟩
  rw [PhaseRecord.committed,PhaseRecord.recordTransition_outputs]
  rfl

theorem published_continues {session : CompilerSession} {phase q : PhaseRecord}
    (h : Published w r session phase rt t) (hs : rt.find r.session=some session)
    (hq : t.phase sid pid=some q) : ∃ p,rt.phase sid pid=some p ∧ p.Continues q := by
  have same (p : PhaseRecord) : p.Continues p := ⟨fun h => h,rfl,rfl,rfl⟩
  rcases h with h | ⟨commit,candidate,_,h⟩
  · rw [Runtime.phase,find_of_sessions h] at hq
    exact ⟨q,hq,same q⟩
  rw [phase_modifySession h] at hq
  split at hq
  · next hsid =>
    subst hsid
    rw [hs,Option.map_some,Option.bind_some,CompilerSession.findPhase,projected_phases] at hq
    have hf := session.findPhase_modifyPhase phase.id pid (·.committed commit w.now)
    rw [CompilerSession.findPhase,hq] at hf
    split at hf
    · obtain ⟨p,hp,he⟩ := Option.map_eq_some_iff.1 hf.symm
      subst he
      exact ⟨p,Option.bind_eq_some_iff.2 ⟨session,hs,hp⟩,committed_continues p commit w.now⟩
    · exact ⟨q,Option.bind_eq_some_iff.2 ⟨session,hs,hf.symm⟩,same q⟩
  · exact ⟨q,hq,same q⟩

/-- A commit idles, or publishes the outputs of the phase it found COMMIT_READY; where the journal
takes it the phase is COMMITTED. -/
structure Publishes (w : World) (r : Reservation) (rt t : Runtime) (session : CompilerSession)
    (phase : PhaseRecord) : Prop where
  committable : rt.committable r=.ok (session,phase)
  elevates : rt.Elevates (phase.outputs.map (·.id.value)) t
  published : Published w r session phase rt t
  taken : t.persistFailures=rt.persistFailures → ∃ commit candidate,t.sessions=
    rt.sessions.modify r.session.value fun _ =>
      (session.committedPhase phase.id commit w.now).withCandidate candidate

theorem commitReserved_spec (report : ExecutionReport) :
    rt.Idles (commitReserved w r report rt).2 ∨
      ∃ session phase,Publishes w r rt (commitReserved w r report rt).2 session phase := by
  let ends (t : Runtime) : Prop := rt.Idles t ∨ ∃ session phase,Publishes w r rt t session phase
  refine bind_state (Q := ends) (by rintro _ _ ⟨⟩) ?_
  rintro _ _ ⟨⟩
  refine bind_state (Q := ends) ?_ ?_
  · intro e t ht
    cases (congrArg Prod.snd ht : rt=t)
    exact .inl (Std.Refl.refl rt)
  rintro ⟨session,phase⟩ t ht
  obtain ⟨hc,he⟩ := ofExcept_eq_ok.1 ht
  subst he
  have hidle := (reprobe_within w r session phase rt (σ := fun _ => Eq)).idles
  refine bind_state (Q := ends) ?_ ?_
  · intro e t ht
    rw [ht] at hidle
    exact .inl hidle
  intro _ t ht
  rw [ht] at hidle
  obtain ⟨toolchains,evidenceIds,hframe⟩ := reprobe_ok w r ht
  refine bind_state (Q := ends) (by rintro _ _ ⟨⟩) ?_
  rintro _ _ ⟨⟩
  dsimp only
  split
  · subst hframe
    exact .inr ⟨session,phase,hc,publish_elevates report session phase
      { rt with toolchains,evidenceIds },
      publish_sessions w r report session phase _,publish_taken⟩
  · exact .inl (IsTrans.trans (r := Idles) _ _ _ hidle
      (refuseCommit_within w r phase _ t (σ := fun _ => Eq)).idles)

theorem Publishes.authored {session : CompilerSession} {phase : PhaseRecord}
    (h : Publishes w r rt t session phase) (ha : rt.Authored) : t.Authored := by
  refine ha.elevate h.elevates fun sid pid q hq _ => .inl ?_
  exact published_continues h.published (committable_ok r h.committable).1 hq

end Commit

/-- A new generation has produced nothing yet. -/
theorem reserved_outputs (p : PhaseRecord) (session : CompilerSession) (r : Reservation)
    (inputs : List (Ref .intermediate)) (isRetry : Bool) (now : UInt64) :
    (p.reserved session r inputs isRetry now).outputs=[] := by
  rw [PhaseRecord.reserved,PhaseRecord.recordTransition_outputs,PhaseRecord.recordTransition_outputs]
  rfl

theorem reserve_artifacts (isRetry : Bool) (rt : Runtime) :
    (reserve w sid pid isRetry rt).2.artifacts=rt.artifacts := by
  cases hx : reserve w sid pid isRetry rt with
  | mk result t =>
    rcases reserve_spec w sid pid hx with ⟨⟨_,_,ha⟩,_⟩ | ⟨_,_,_,_,hr,_⟩
    · exact ha
    · exact hr.artifacts

theorem reserve_authored (isRetry : Bool) (h : rt.Authored) :
    (reserve w sid pid isRetry rt).2.Authored := by
  have same (q : PhaseRecord) : q.Continues q := ⟨fun h => h,rfl,rfl,rfl⟩
  cases hx : reserve w sid pid isRetry rt with
  | mk result t =>
    rcases reserve_spec w sid pid hx with ⟨⟨hs,_,ha⟩,_⟩ | ⟨s,p,inputs,r,hr,_⟩
    · refine @Authored.elevate _ _ [] h ?_ fun who k q hq _ => ?_
      · rw [ha]
        exact Std.Refl.refl _
      · rw [Runtime.phase,find_of_sessions hs] at hq
        exact .inl ⟨q,hq,same q⟩
    · refine @Authored.elevate _ _ [] h ?_ fun who k q hq _ => ?_
      · rw [hr.artifacts]
        exact Std.Refl.refl _
      rw [phase_modifySession hr.sessions] at hq
      split at hq
      · next hw =>
        subst hw
        obtain ⟨s',hs',hq⟩ := Option.bind_eq_some_iff.1 hq
        obtain ⟨s₀,hs₀,he⟩ := Option.map_eq_some_iff.1 hs'
        subst he
        have hf := s₀.findPhase_modifyPhase r.phase k fun p => p.reserved s₀ r inputs isRetry w.now
        have hq : (s₀.modifyPhase r.phase fun p => p.reserved s₀ r inputs isRetry w.now).findPhase k=
            some q := hq
        rw [hq] at hf
        split at hf
        · obtain ⟨p',_,he⟩ := Option.map_eq_some_iff.1 hf.symm
          subst he
          exact .inr (reserved_outputs p' s₀ r inputs isRetry w.now)
        · exact .inl ⟨q,Option.bind_eq_some_iff.2 ⟨s₀,hs₀,hf.symm⟩,same q⟩
      · exact .inl ⟨q,hq,same q⟩

section Empty

theorem authored_bare (hs : rt.sessions=∅) (ha : rt.artifacts={}) : rt.Authored := by
  refine ⟨?_,?_,?_⟩
  · rw [ha]
    refine ⟨rfl,fun i hi => ?_⟩
    simp at hi
  · intro id a hf
    rw [ha] at hf
    simp [ArtifactRegistry.find] at hf
  · intro sid pid p hp
    simp [phase,find,hs] at hp

theorem recoverSessions_artifacts {records : List JournalRecord} (h : (replay records).1=∅) :
    Within SameArtifacts (recoverSessions w records) := by
  unfold recoverSessions
  cases hr : replay records with
  | mk latest defects =>
    rw [hr] at h
    have h : latest=∅ := h
    subst h
    refine Within.bind (fun _ => rfl) fun _ => ?_
    rw [Std.ExtTreeMap.toList_eq_nil_iff.2 rfl]
    exact Within.bind (.pure _) fun _ => .pure _

/-- A process that finds no session in its store begins with none, and with no artifact. -/
theorem create_bare {options : RuntimeOptions} {file : Bytes} (adapters : List Adapter)
    (h : replayed w options file=∅) : (create w options adapters file).2.sessions=∅ ∧
      (create w options adapters file).2.artifacts={} := by
  constructor
  · apply Std.ExtTreeMap.ext_getElem?
    intro i
    cases hs : (create w options adapters file).2.sessions[i]? with
    | none => simp
    | some s =>
      obtain ⟨b,hb,_⟩ := (create_spec w options adapters file).1 i s hs
      rw [h] at hb
      simp at hb
  · unfold create
    unfold replayed at h
    dsimp only
    split
    · rfl
    split
    · split
      · rfl
      · next store hopen =>
        rw [hopen] at h
        have hx : Within SameArtifacts (recoverFrom w store.load) := by
          refine (Within.ofExcept _).bind fun _ => Within.bind (fun _ => rfl) fun _ => ?_
          refine Within.bind (fun rt => ?_) fun _ => Within.get.bind fun _ => ?_
          · unfold recordEpoch
            split
            · rfl
            · split <;> rfl
          · split
            · exact recoverSessions_artifacts h
            · exact .pure _
        exact hx _
    · rfl

end Empty

end Runtime

end CompilerFabric
