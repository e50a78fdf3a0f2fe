import CompilerFabric.Law.Descent
import CompilerFabric.Law.Upheld
import CompilerFabric.Law.Units

namespace CompilerFabric

open Base Base.Action

/-- Of a list in order, `uniqueAfter` keeps one element for each key. -/
theorem uniqueAfter_sorted {α κ : Type} [LinearOrder κ] (key : α → κ) {eq : α → α → Bool}
    (he : ∀ x y,eq x y ↔ key x=key y) {x : α} {l : List α}
    (hs : (x::l).Pairwise fun a b => key a ≤ key b) :
    (∀ k,k ∈ (uniqueAfter eq x l).map key ↔ k ∈ (x::l).map key) ∧
      (uniqueAfter eq x l).Pairwise fun a b => key a<key b := by
  induction l generalizing x with
  | nil => exact ⟨fun _ => Iff.rfl,List.pairwise_singleton _ _⟩
  | cons y l ih =>
    obtain ⟨hx,hyl⟩ := List.pairwise_cons.1 hs
    obtain ⟨hy,hl⟩ := List.pairwise_cons.1 hyl
    rw [uniqueAfter]
    split
    · next heq =>
      have hkey := (he x y).1 heq
      have hxl : (x::l).Pairwise fun a b => key a ≤ key b :=
        List.pairwise_cons.2 ⟨fun z hz => hx z (List.mem_cons_of_mem _ hz),hl⟩
      obtain ⟨hmem,hp⟩ := ih hxl
      refine ⟨fun k => ?_,hp⟩
      rw [hmem]
      simp only [List.map_cons,List.mem_cons,hkey]
      tauto
    · next hne =>
      obtain ⟨hmem,hp⟩ := ih hyl
      refine ⟨fun k => ?_,List.pairwise_cons.2 ⟨fun z hz => ?_,hp⟩⟩
      · rw [List.map_cons,List.mem_cons,hmem,List.map_cons (f := key) (a := x),List.mem_cons]
      · have hlt : key x<key y := by
          refine lt_of_le_of_ne (hx y List.mem_cons_self) fun hk => hne ((he x y).2 hk)
        obtain ⟨z',hz',hk⟩ := List.mem_map.1 ((hmem (key z)).1 (List.mem_map_of_mem hz))
        rcases List.mem_cons.1 hz' with rfl | hz'
        · exact hk ▸ hlt
        · exact hk ▸ lt_of_lt_of_le hlt (hy z' hz')

theorem uniqueBy_sorted {α κ : Type} [LinearOrder κ] (key : α → κ) {eq : α → α → Bool}
    (he : ∀ x y,eq x y ↔ key x=key y) {l : List α} (hs : l.Pairwise fun a b => key a ≤ key b) :
    (∀ k,k ∈ (uniqueBy eq l).map key ↔ k ∈ l.map key) ∧
      (uniqueBy eq l).Pairwise fun a b => key a<key b := by
  cases l with
  | nil => exact ⟨fun _ => Iff.rfl,List.Pairwise.nil⟩
  | cons x l => exact uniqueAfter_sorted key he hs

theorem exists_of_mapM_ok {α β ε : Type} {f : α → Except ε β} {l : List α} {ys : List β}
    (h : l.mapM f=.ok ys) {x : α} (hx : x ∈ l) : ∃ y ∈ ys,f x=.ok y := by
  induction l generalizing ys with
  | nil => cases hx
  | cons z l ih =>
    simp only [List.mapM_cons,do_eq_ok] at h
    obtain ⟨y,hy,zs,hl,he⟩ := h
    cases he
    rcases List.mem_cons.1 hx with rfl | hx
    · exact ⟨y,List.mem_cons_self,hy⟩
    · obtain ⟨y',hm,hy'⟩ := ih hl hx
      exact ⟨y',List.mem_cons_of_mem y hm,hy'⟩

/-- What the phases a node depends on have made, once each and in the order it was registered: all of
them are COMMITTED, and what they made is authoritative. -/
structure Runtime.Gathers (rt : Runtime) (s : CompilerSession) (node : PhaseNode)
    (inputs : List (Ref .intermediate)) : Prop where
  committed : ∀ dependency ∈ node.dependsOn,∃ q,s.findPhase dependency=some q ∧ q.state=.committed
  ordered : inputs.Pairwise fun a b => a.id.value<b.id.value
  outputs : ∀ id,id ∈ inputs.map (·.id) ↔ ∃ dependency ∈ node.dependsOn,∃ q,
    s.findPhase dependency=some q ∧ id ∈ q.outputs.map (·.id)
  authoritative : ∀ id ∈ inputs.map (·.id),∃ a,rt.artifacts.find id=some a ∧
    a.authority=.authoritative ∧ a.state.isConsumable

namespace Runtime

variable {rt : Runtime} {s : CompilerSession} {p : PhaseRecord} {node : PhaseNode}
  {inputs : List (Ref .intermediate)}

theorem mem_ids {refs : List (Ref .intermediate)} {id : IntermediateArtifactId} :
    id ∈ refs.map (·.id) ↔ id.value.toNat ∈ refs.map fun r => r.id.value.toNat := by
  simp only [List.mem_map,UInt64.toNat_inj,StrongId.ext_iff]

/-- What a dependency hands over. -/
theorem inputsFrom_outputs {dependency : CompilerPhaseId} {refs : List (Ref .intermediate)}
    (h : rt.inputsFrom s dependency=.ok refs) (hf : rt.Filed) : ∃ q,s.findPhase dependency=some q ∧
      q.state=.committed ∧ (∀ id,id ∈ refs.map (·.id) ↔ id ∈ q.outputs.map (·.id)) ∧
      ∀ id ∈ refs.map (·.id),∃ a,rt.artifacts.find id=some a ∧ a.authority=.authoritative ∧
        a.state.isConsumable := by
  obtain ⟨q,hq,hc,hm⟩ := inputsFrom_ok.1 h
  have given {output x : Ref .intermediate} (hg : rt.givenOutput output=.ok x) : x.id=output.id ∧
      ∃ a,rt.artifacts.find x.id=some a ∧ a.authority=.authoritative ∧ a.state.isConsumable := by
    obtain ⟨a,ha,hu,hs,rfl⟩ := givenOutput_ok.1 hg
    have hid : a.id=output.id := (hf output.id a ha).1
    exact ⟨hid,a,hid ▸ ha,hu,hs⟩
  refine ⟨q,hq,hc,fun id => ⟨fun hid => ?_,fun hid => ?_⟩,fun id hid => ?_⟩
  · obtain ⟨x,hx,rfl⟩ := List.mem_map.1 hid
    obtain ⟨output,ho,hg⟩ := mem_of_mapM_ok hm hx
    exact (given hg).1 ▸ List.mem_map_of_mem ho
  · obtain ⟨output,ho,rfl⟩ := List.mem_map.1 hid
    obtain ⟨x,hx,hg⟩ := exists_of_mapM_ok hm ho
    exact (given hg).1 ▸ List.mem_map_of_mem hx
  · obtain ⟨x,hx,rfl⟩ := List.mem_map.1 hid
    obtain ⟨output,_,hg⟩ := mem_of_mapM_ok hm hx
    exact (given hg).2

theorem resolveInputs_gathers (h : rt.resolveInputs s p=.ok inputs) (hf : rt.Filed)
    (hn : s.plan.find p.id=some node) : rt.Gathers s node inputs := by
  simp only [resolveInputs,hn,Option.elim_some,do_eq_ok] at h
  obtain ⟨_,hnode,found,hfound,_,_,he⟩ := h
  cases hnode
  cases he
  have hsorted := found.flatten.pairwise_insertionSort fun a b => a.id.value ≤ b.id.value
  have heq (x y : Ref .intermediate) :
      decide (x.id=y.id)=true ↔ x.id.value.toNat=y.id.value.toNat := by
    simp [StrongId.ext_iff,UInt64.toNat_inj]
  obtain ⟨hmem,hordered⟩ :=
    uniqueBy_sorted (fun r : Ref .intermediate => r.id.value.toNat) heq hsorted
  have hids (id : IntermediateArtifactId) : id ∈ (uniqueBy (fun a b => decide (a.id=b.id))
      (found.flatten.insertionSort fun a b => a.id.value ≤ b.id.value)).map (·.id) ↔
      ∃ refs ∈ found,id ∈ refs.map (·.id) := by
    rw [mem_ids,hmem,← mem_ids,(found.flatten.perm_insertionSort _).map (·.id) |>.mem_iff,
      List.map_flatten,List.mem_flatten]
    simp
  refine ⟨?_,?_,?_,?_⟩
  · intro d hd
    obtain ⟨refs,_,hrefs⟩ := exists_of_mapM_ok hfound hd
    obtain ⟨q,hq,hc,_⟩ := inputsFrom_outputs hrefs hf
    exact ⟨q,hq,hc⟩
  · exact hordered.imp UInt64.lt_iff_toNat_lt.2
  · intro id
    rw [hids]
    constructor
    · rintro ⟨refs,hm,hid⟩
      obtain ⟨d,hd,hrefs⟩ := mem_of_mapM_ok hfound hm
      obtain ⟨q,hq,_,houtputs,_⟩ := inputsFrom_outputs hrefs hf
      exact ⟨d,hd,q,hq,(houtputs id).1 hid⟩
    · rintro ⟨d,hd,q,hq,hid⟩
      obtain ⟨refs,hm,hrefs⟩ := exists_of_mapM_ok hfound hd
      obtain ⟨q',hq',_,houtputs,_⟩ := inputsFrom_outputs hrefs hf
      cases hq.symm.trans hq'
      exact ⟨refs,hm,(houtputs id).2 hid⟩
  · intro id hid
    obtain ⟨refs,hm,hid⟩ := (hids id).1 hid
    obtain ⟨d,_,hrefs⟩ := mem_of_mapM_ok hfound hm
    obtain ⟨_,_,_,_,hauth⟩ := inputsFrom_outputs hrefs hf
    exact hauth id hid

end Runtime

namespace Runtime

variable {w : World} {rt t : Runtime} {r : Reservation}

/-- What is registered of an artifact stays. -/
def KeepsMade (rt t : Runtime) : Prop := ∀ id a,rt.artifacts.find id=some a →
  ∃ a',t.artifacts.find id=some a' ∧ a'.made=a.made

instance : IsPreorder Runtime KeepsMade where
  refl _ _ a ha := ⟨a,ha,rfl⟩
  trans := by
    intro rt t u h h' id a ha
    obtain ⟨b,hb,he⟩ := h id a ha
    obtain ⟨c,hc,he'⟩ := h' id b hb
    exact ⟨c,hc,he'.trans he⟩

theorem KeepsMade.of_eq (h : t.artifacts=rt.artifacts) : KeepsMade rt t :=
  fun _ a ha => ⟨a,h ▸ ha,rfl⟩

theorem KeepsMade.of_elevates {ids : List UInt64} (h : rt.artifacts.Elevates ids t.artifacts) :
    KeepsMade rt t := fun _ _ ha => h.find ha

theorem Idles.keepsMade (h : rt.Idles t) : KeepsMade rt t := by
  have helevates : rt.artifacts.Elevates [] t.artifacts := h.artifacts.elevates
  exact .of_elevates helevates

theorem keepsMade_of_quiet {α : Type} {x : Op α} (h : Within Quiet x) : Within KeepsMade x :=
  h.mono fun _ _ h => h.idles.keepsMade

theorem registerOutput_keepsMade (session : CompilerSession) (phase : PhaseRecord)
    (output : OutputDescriptor) : Within KeepsMade (registerOutput r session phase output) := by
  refine Within.bind ?_ fun reference => Within.bind (fun _ => .of_eq rfl) fun _ _ => .of_eq rfl
  intro rt
  unfold registerArtifact ArtifactRegistry.registerArtifact
  split_ifs
  · exact Std.Refl.refl rt
  · intro id a ha
    have ha : rt.artifacts.entries[id.value]?=some a := ha
    refine ⟨a,?_,rfl⟩
    show (rt.artifacts.entries.insertIfNew _ _)[id.value]?=some a
    rw [Std.ExtTreeMap.getElem?_insertIfNew,if_neg,ha]
    rintro ⟨hk,hn⟩
    refine hn (Std.ExtTreeMap.mem_iff_isSome_getElem?.2 ?_)
    rw [Std.LawfulEqCmp.eq_of_compare hk,ha]
    rfl

theorem recordExecution_keepsMade (report : ExecutionReport) :
    Within KeepsMade (recordExecution w r report) := by
  have write (f : CompilerSession → CompilerSession) :
      Within KeepsMade (modify (·.modifySession r.session f) : Op Unit) := fun _ => .of_eq rfl
  refine Within.get.bind fun _ => (Within.ofExcept _).bind fun (session,phase) => ?_
  refine (write _).bind fun _ => Within.bind ?_ fun stored => (write _).bind fun _ => ?_
  · intro rt
    unfold addDiagnostics
    split <;> exact .of_eq rfl
  refine Within.bind (fun _ => .of_eq rfl) fun _ => ?_
  split
  · refine (write _).bind fun _ => ?_
    refine (Within.forEach (registerOutput_keepsMade session phase) _).bind fun _ => ?_
    refine Within.bind (fun _ => .of_eq rfl) fun _ => (write _).bind fun _ => ?_
    exact keepsMade_of_quiet (persistSession_within w r.session)
  · exact (write _).bind fun _ => keepsMade_of_quiet (persistSession_within w r.session)

theorem commitReserved_keepsMade (report : ExecutionReport) :
    Within KeepsMade (commitReserved w r report) := by
  intro rt
  rcases @commitReserved_spec w rt r report with h | ⟨session,phase,h⟩
  · exact h.keepsMade
  · exact .of_elevates h.elevates

theorem createSession_keepsMade (request : CompileRequest) :
    Within KeepsMade (createSession w request) := by
  refine Within.bind ?_ fun parts => Within.get.bind fun _ => Within.bind ?_ fun _ => ?_
  · exact keepsMade_of_quiet (sessionParts_within w request)
  · exact keepsMade_of_quiet (persist_within w _)
  · exact Within.bind (fun _ => .of_eq rfl) fun _ => Within.bind (fun _ => .of_eq rfl) fun _ => .pure _

end Runtime

namespace Sample

/-- A toolchain of a compiler and a linker. -/
def pairTools : ToolchainIdentity :=
  { family := ⟨1⟩
    components := [{ kind := ⟨2⟩,file := { canonicalPath := ascii "C:\\cl.exe" } },
      { kind := ⟨6⟩,file := { canonicalPath := ascii "C:\\link.exe" } }] }

def msvc : System := System.boot options [{ name := ascii "msvc",family := ⟨1⟩ }] [] world

/-- The tools on two sources, with what a phase makes. -/
def making (outputs : List OutputDescriptor) : World :=
  { paired with
    probed := .ok pairTools
    reprobed := .ok { pairTools with id := ⟨1⟩,generation := ⟨1⟩ }
    execution := .ok { report with outputs } }

def makingFile (path : Bytes) (format : ObjectFormat) : World :=
  making [{ logicalName := path,path,format,present := true }]

/-- Both sources are compiled, the second one first, what comes of them is linked, and the program is
about to run. -/
def linkedPair : List Event :=
  .call (.discoverToolchain ⟨1⟩) (making [])::
    .call (.createSession { pairRequest with toolchainFamily := ⟨1⟩ }) (making [])::
    (phaseCalls 2 ⟨1⟩ (making [])++
      phaseCalls 3 ⟨3⟩ (makingFile (ascii "util.obj") .coffObject)++
      phaseCalls 4 ⟨2⟩ (makingFile (ascii "main.obj") .coffObject)++
      phaseCalls 5 ⟨4⟩ (makingFile (ascii "main.exe") .coffImage)++
      (phaseCalls 6 ⟨5⟩ (making [])).take 2)

/-- The phase has begun, and its invocation is one that passes. -/
def builds (pid : CompilerPhaseId) (passes : PhaseRecord → InvocationSpec → Bool) : Bool :=
  ((msvc.run linkedPair).rt.find ⟨1⟩).any fun s => (s.findPhase pid).any fun p =>
    decide (p.attempts ≠ []) && (s.plan.find pid).isSome &&
    ((msvc.run linkedPair).rt.executionRequest s p
      { root := ascii "C:\\work",valid := true }).toOption.any fun request =>
    (MsvcAdapter.buildInvocation {} request).toOption.any (passes p)

theorem linkedPair_calls : ∀ e ∈ linkedPair,e.inProcess ∧ e.unadopted := by
  intro e he
  simp only [linkedPair,List.mem_cons,List.mem_append] at he
  rcases he with rfl | rfl | (((h | h) | h) | h) | h
  · exact ⟨trivial,trivial⟩
  · exact ⟨trivial,trivial⟩
  · exact System.phaseCalls_calls e h
  · exact System.phaseCalls_calls e h
  · exact System.phaseCalls_calls e h
  · exact System.phaseCalls_calls e h
  · exact System.phaseCalls_calls e (List.mem_of_mem_take h)

theorem built_of_builds {pid : CompilerPhaseId} {passes : PhaseRecord → InvocationSpec → Bool}
    (h : builds pid passes) : ∃ s p node request spec,(msvc.run linkedPair).rt.find ⟨1⟩=some s ∧
      s.findPhase pid=some p ∧ p.attempts ≠ [] ∧ s.plan.find pid=some node ∧
      (msvc.run linkedPair).rt.executionRequest s p
        { root := ascii "C:\\work",valid := true }=.ok request ∧
      MsvcAdapter.buildInvocation {} request=.ok spec ∧ passes p spec := by
  obtain ⟨s,hs,h⟩ := (Option.any_eq_true _ _).1 h
  obtain ⟨p,hp,h⟩ := (Option.any_eq_true _ _).1 h
  simp only [Bool.and_eq_true,decide_eq_true_eq] at h
  obtain ⟨⟨hb,hn⟩,h⟩ := h
  obtain ⟨node,hn⟩ := Option.isSome_iff_exists.1 hn
  obtain ⟨request,hreq,h⟩ := ok_of_any h
  obtain ⟨spec,hspec,h⟩ := ok_of_any h
  exact ⟨s,p,node,request,spec,hs,hp,hb,hn,hreq,hspec,h⟩

theorem linkedPair_builds : builds ⟨4⟩ (fun p spec =>
      p.kind=.link ∧ spec.arguments.drop 5=[ascii "util.obj",ascii "main.obj"]) ∧
    builds ⟨5⟩ (fun p spec => p.kind=.finalize ∧ spec.executable=ascii "main.exe") := by
  decide +kernel

end Sample

namespace System

variable {sys : System} {e : Event} {events : List Event} {sid : CompilerSessionId}
  {pid : CompilerPhaseId}

theorem run_filed (hf : sys.rt.Filed) (he : ∀ e ∈ events,e.inProcess) :
    (sys.run events).rt.Filed := by
  induction events using List.reverseRecOn with
  | nil => exact hf
  | append_singleton events e ih =>
    rw [run_snoc]
    exact (apply_derives (he e (by simp))).filed (ih fun e h => he e (by simp [h]))

theorem filed_bare (ha : sys.rt.artifacts={}) : sys.rt.Filed := by
  intro id a h
  rw [ha] at h
  simp [ArtifactRegistry.find] at h

theorem apply_found (he : e.inProcess) (hl : sys.rt.Lawful) {s s' : CompilerSession}
    (hs : sys.rt.find sid=some s) (hs' : (sys.apply e).rt.find sid=some s') :
    s'.plan=s.plan ∧ ∀ pid q,s'.findPhase pid=some q →
      ∃ p,s.findPhase pid=some p ∧ sys.Writes e sid pid p q := by
  obtain ⟨_,ht,hkeep⟩ := (sys.apply_keeps he).sessions sid.value s hs
  cases hs'.symm.trans ht
  refine ⟨congrArg (·.2.1) hkeep.binding,fun pid q hq => ?_⟩
  obtain ⟨p,hp,_⟩ := hkeep.before hq
  obtain ⟨q',hq',hw⟩ := apply_writes he (fun sid s hs => (hl sid s hs).keyed)
    (Option.bind_eq_some_iff.2 ⟨s,hs,hp⟩)
  obtain ⟨_,ht,hq'⟩ := Option.bind_eq_some_iff.1 hq'
  cases hs'.symm.trans ht
  cases hq.symm.trans hq'
  exact ⟨p,hp,hw⟩

theorem apply_keepsMade (he : e.inProcess) (hu : e.unadopted) :
    Runtime.KeepsMade sys.rt (sys.apply e).rt := by
  have hturn := @apply_turn sys e he
  generalize (sys.apply e).rt=t at hturn
  cases hturn with
  | idle h => exact h.keepsMade
  | @reserve w run h hpc => exact .of_eq (Runtime.reserve_artifacts run.isRetry (sys.rt.facing w))
  | @record w r report h => exact Runtime.recordExecution_keepsMade report (sys.rt.facing w)
  | @commit w run r report h hpc => exact Runtime.commitReserved_keepsMade report (sys.rt.facing w)
  | @create w request hup he => exact Runtime.createSession_keepsMade request (sys.rt.facing w)
  | @adopt w session hup he =>
    subst he
    exact hu.elim

theorem run_keepsMade (he : ∀ e ∈ events,e.inProcess) (hu : ∀ e ∈ events,e.unadopted) :
    Runtime.KeepsMade sys.rt (sys.run events).rt := by
  induction events using List.reverseRecOn with
  | nil => exact Std.Refl.refl sys.rt
  | append_singleton events e ih =>
    rw [run_snoc]
    exact IsTrans.trans _ _ _ (ih (fun e h => he e (by simp [h])) fun e h => hu e (by simp [h]))
      (apply_keepsMade (he e (by simp)) (hu e (by simp)))

theorem run_take_keepsMade (n : Nat) (he : ∀ e ∈ events,e.inProcess) (hu : ∀ e ∈ events,e.unadopted) :
    Runtime.KeepsMade (sys.run (events.take n)).rt (sys.run events).rt := by
  have hrun : sys.run (events.take n++events.drop n)=(sys.run (events.take n)).run (events.drop n) :=
    List.foldl_append
  rw [List.take_append_drop] at hrun
  rw [hrun]
  exact run_keepsMade (fun e h => he e (List.mem_of_mem_drop h)) fun e h => hu e (List.mem_of_mem_drop h)

/-- What an event does to the inputs of a phase that has begun: it leaves them, or a reservation gathers
them anew. -/
theorem Writes.inputs {p q : PhaseRecord} (h : sys.Writes e sid pid p q) (ha : q.attempts ≠ []) :
    p.attempts ≠ [] ∧ q.inputs=p.inputs ∨
      ∃ s isRetry,Runtime.Admits sid pid isRetry sys.rt s p q.inputs := by
  have stays (h : p.Stays q) : p.attempts ≠ [] ∧ q.inputs=p.inputs := by
    refine ⟨fun hp => ?_,congrArg (·.2.2.2.2.2.2.2.2.2.2.1) h.binding⟩
    have hl := h.attempts
    rw [hp] at hl
    exact ha (List.map_eq_nil_iff.1 hl)
  cases h with
  | moves h => exact .inl (stays h.toStays)
  | reserves r isRetry now h =>
    obtain ⟨_,_,he⟩ := Runtime.reserved_frame r p _ _ isRetry now
    rw [he]
    exact .inr ⟨_,_,h⟩
  | commits now => exact .inl (stays (Runtime.committed_stays p _ now))

theorem begun_gathers (hs : sys.rt.sessions=∅) (ha : sys.rt.artifacts={})
    (he : ∀ e ∈ events,e.inProcess) (hu : ∀ e ∈ events,e.unadopted) {s : CompilerSession}
    (hf : (sys.run events).rt.find sid=some s) {p : PhaseRecord} (hp : s.findPhase pid=some p)
    (hb : p.attempts ≠ []) {node : PhaseNode} (hn : s.plan.find pid=some node) :
    ∃ n ≤ events.length,∃ before,(sys.run (events.take n)).rt.find sid=some before ∧
      (sys.run (events.take n)).rt.Gathers before node p.inputs := by
  induction events using List.reverseRecOn generalizing s p with
  | nil =>
    have hf : sys.rt.sessions[sid.value]?=some s := hf
    rw [hs] at hf
    simp at hf
  | append_singleton events e ih =>
    have he' : ∀ e ∈ events,e.inProcess := fun e h => he e (by simp [h])
    have hu' : ∀ e ∈ events,e.unadopted := fun e h => hu e (by simp [h])
    have hl := run_lawful hs he' hu'
    rw [run_snoc] at hf
    cases hs₁ : (sys.run events).rt.find sid with
    | none =>
      -- a session that is new has begun nothing
      rcases apply_known (he e (by simp)) (hu e (by simp)) (by rw [hf]; rfl) with hk | ⟨request,w,_,hrt⟩
      · rw [hs₁] at hk
        cases hk
      · rw [hrt] at hf
        obtain ⟨parts,_,_,rfl,rfl,_⟩ := Runtime.createSession_new
          (show ((sys.run events).rt.facing w).find sid=none from hs₁) hf
        obtain ⟨_,_,_,_,rfl⟩ := Runtime.newSession_phase hp
        exact absurd rfl hb
    | some s₁ =>
      obtain ⟨hplan,hfound⟩ := apply_found (he e (by simp)) hl hs₁ hf
      obtain ⟨p₁,hp₁,hw⟩ := hfound pid p hp
      rw [hplan] at hn
      rcases hw.inputs hb with ⟨hb₁,hin⟩ | ⟨s₂,isRetry,hadmits⟩
      · obtain ⟨n,hle,before,hbefore,hg⟩ := ih he' hu' hs₁ hp₁ hb₁ hn
        refine ⟨n,hle.trans (by simp),before,?_⟩
        rw [List.take_append_of_le_length hle,hin]
        exact ⟨hbefore,hg⟩
      · cases hs₁.symm.trans hadmits.session
        refine ⟨events.length,by simp,s₁,?_⟩
        rw [List.take_left]
        have hid : p₁.id=pid := (hl sid s₁ hs₁).keyed pid p₁ hp₁
        exact ⟨hs₁,Runtime.resolveInputs_gathers hadmits.inputs (run_filed (filed_bare ha) he')
          (hid ▸ hn)⟩

/-- What a phase that has begun takes in is registered as it was made. -/
theorem begun_registered (hs : sys.rt.sessions=∅) (ha : sys.rt.artifacts={})
    (he : ∀ e ∈ events,e.inProcess) (hu : ∀ e ∈ events,e.unadopted) {s : CompilerSession}
    (hf : (sys.run events).rt.find sid=some s) {p : PhaseRecord} (hp : s.findPhase pid=some p)
    (hb : p.attempts ≠ []) {node : PhaseNode} (hn : s.plan.find pid=some node) :
    ∃ n ≤ events.length,∃ before,(sys.run (events.take n)).rt.find sid=some before ∧
      (sys.run (events.take n)).rt.Gathers before node p.inputs ∧
      ∀ id ∈ p.inputs.map (·.id),∃ a a',(sys.run (events.take n)).rt.artifacts.find id=some a ∧
        a.authority=.authoritative ∧ (sys.run events).rt.artifacts.find id=some a' ∧
        a'.made=a.made ∧ a'.id=id := by
  obtain ⟨n,hle,before,hbefore,hg⟩ := begun_gathers hs ha he hu hf hp hb hn
  refine ⟨n,hle,before,hbefore,hg,fun id hid => ?_⟩
  obtain ⟨a,hfound,hauth,_⟩ := hg.authoritative id hid
  obtain ⟨a',hfound',hmade⟩ := (run_take_keepsMade n he hu) id a hfound
  exact ⟨a,a',hfound,hauth,hfound',hmade,(run_filed (filed_bare ha) he id a' hfound').1⟩

/-- What a phase that has begun takes in is what the phases it depends on had made at one moment of the
run, when all of them stood COMMITTED: everything they made, once each and in the order it was
registered, authoritative then and registered still as it was made. -/
theorem inputs_gathered (hs : sys.rt.sessions=∅) (ha : sys.rt.artifacts={})
    (he : ∀ e ∈ events,e.inProcess) (hu : ∀ e ∈ events,e.unadopted) {s : CompilerSession}
    (hf : (sys.run events).rt.find sid=some s) {p : PhaseRecord} (hp : s.findPhase pid=some p)
    (hb : p.attempts ≠ []) {node : PhaseNode} (hn : s.plan.find pid=some node) :
    ∃ n ≤ events.length,∃ before,(sys.run (events.take n)).rt.find sid=some before ∧
      (sys.run (events.take n)).rt.Gathers before node p.inputs ∧
      ∀ id ∈ p.inputs.map (·.id),∃ a a',(sys.run (events.take n)).rt.artifacts.find id=some a ∧
        a.authority=.authoritative ∧ (sys.run events).rt.artifacts.find id=some a' ∧
        a'.made=a.made := by
  obtain ⟨n,hle,before,hbefore,hg,hnow⟩ := begun_registered hs ha he hu hf hp hb hn
  refine ⟨n,hle,before,hbefore,hg,fun id hid => ?_⟩
  obtain ⟨a,a',hfound,hauth,hfound',hmade,_⟩ := hnow id hid
  exact ⟨a,a',hfound,hauth,hfound',hmade⟩

/-- The link takes in both objects. -/
theorem inputs_gathered_of_linkedPair : ∃ s p,(Sample.msvc.run Sample.linkedPair).rt.find ⟨1⟩=some s ∧
    s.findPhase ⟨4⟩=some p ∧ ∃ n before node,
      (Sample.msvc.run (Sample.linkedPair.take n)).rt.find ⟨1⟩=some before ∧
      (Sample.msvc.run (Sample.linkedPair.take n)).rt.Gathers before node p.inputs := by
  obtain ⟨s,p,node,_,_,hs,hp,hb,hn,_⟩ := Sample.built_of_builds Sample.linkedPair_builds.1
  obtain ⟨n,_,before,hbefore,hg,_⟩ := inputs_gathered rfl rfl (fun e he => (Sample.linkedPair_calls e he).1)
    (fun e he => (Sample.linkedPair_calls e he).2) hs hp hb hn
  exact ⟨s,p,hs,hp,n,before,node,hbefore,hg⟩

end System

namespace MsvcAdapter

variable {host : Host} {request : PhaseExecutionRequest} {spec : InvocationSpec}

theorem linkObjects_ok {artifacts : ArtifactRegistry} {refs : List (Ref .intermediate)}
    {objects : List IntermediateArtifact} (h : linkObjects artifacts refs=.ok objects) :
    objects=(refs.filterMap fun reference => artifacts.find reference.id).filter
      (·.format=.coffObject) := by
  induction refs generalizing objects with
  | nil =>
    cases h
    rfl
  | cons reference rest ih =>
    rw [linkObjects] at h
    cases hf : artifacts.find reference.id with
    | none =>
      rw [hf] at h
      cases h
    | some a =>
      rw [hf] at h
      dsimp only at h
      cases hr : linkObjects artifacts rest with
      | error e =>
        rw [hr] at h
        cases h
      | ok tail =>
        rw [hr] at h
        cases h
        have hcons : (reference::rest).filterMap (fun reference => artifacts.find reference.id)=
            a::rest.filterMap fun reference => artifacts.find reference.id :=
          List.filterMap_cons_some hf
        rw [hcons,List.filter_cons,← ih hr]
        simp only [decide_eq_true_eq]

theorem filterMap_ids {artifacts : ArtifactRegistry} {refs : List (Ref .intermediate)}
    (h : ∀ reference ∈ refs,∃ a,artifacts.find reference.id=some a ∧ a.id=reference.id) :
    (refs.filterMap fun reference => artifacts.find reference.id).map (·.id)=refs.map (·.id) := by
  induction refs with
  | nil => rfl
  | cons reference rest ih =>
    obtain ⟨a,hf,hid⟩ := h reference List.mem_cons_self
    have hcons : (reference::rest).filterMap (fun reference => artifacts.find reference.id)=
        a::rest.filterMap fun reference => artifacts.find reference.id :=
      List.filterMap_cons_some hf
    rw [hcons,List.map_cons,List.map_cons,hid,ih fun r hr => h r (List.mem_cons_of_mem _ hr)]

/-- What the invocation of the link is made of. -/
theorem buildInvocation_link (hk : request.kind=.link) (h : buildInvocation host request=.ok spec) :
    ∃ objects,linkObjects request.artifacts request.resolvedInputs=.ok objects ∧
      spec.arguments.drop 5=objects.map (·.path) ∧ spec.inputs=objects.map boundObject := by
  simp only [buildInvocation,do_eq_ok,hk] at h
  obtain ⟨_,_,linker,_,h⟩ := h
  simp only [linkInvocation,do_eq_ok] at h
  obtain ⟨_,_,_,_,_,_,objects,hobjects,he⟩ := h
  cases he
  exact ⟨objects,hobjects,rfl,rfl⟩

/-- The program that is run last is an image among the inputs. -/
theorem buildInvocation_finalize (hk : request.kind=.finalize)
    (h : buildInvocation host request=.ok spec) :
    ∃ image,((request.resolvedInputs.filterMap fun reference =>
        request.artifacts.find reference.id).find? (·.format=.coffImage))=some image ∧
      spec.executable=image.path ∧ spec.producedExecutable := by
  simp only [buildInvocation,do_eq_ok,hk] at h
  obtain ⟨_,_,_,_,h⟩ := h
  simp only [finalizeInvocation,do_eq_ok] at h
  obtain ⟨image,himage,he⟩ := h
  cases he
  refine ⟨image,?_,rfl,rfl⟩
  cases hi : (request.resolvedInputs.filterMap fun reference =>
      request.artifacts.find reference.id).find? (·.format=.coffImage) with
  | none =>
    rw [hi] at himage
    cases himage
  | some found =>
    rw [hi] at himage
    cases himage
    rfl

end MsvcAdapter

namespace System

variable {sys : System} {events : List Event} {sid : CompilerSessionId} {pid : CompilerPhaseId}

/-- However the callers of a process interleave, the linker is handed the object files of the phases
its plan waits for, each once, in the order they were registered, and no other: what those phases had
made at a moment when all of them stood COMMITTED. -/
theorem link_names_objects (hs : sys.rt.sessions=∅) (ha : sys.rt.artifacts={})
    (he : ∀ e ∈ events,e.inProcess) (hu : ∀ e ∈ events,e.unadopted) {s : CompilerSession}
    (hf : (sys.run events).rt.find sid=some s) {p : PhaseRecord} (hp : s.findPhase pid=some p)
    (hb : p.attempts ≠ []) (hk : p.kind=.link) {node : PhaseNode} (hn : s.plan.find pid=some node)
    {workspace : Workspace} {host : Host} {request : PhaseExecutionRequest} {spec : InvocationSpec}
    (hreq : (sys.run events).rt.executionRequest s p workspace=.ok request)
    (hspec : MsvcAdapter.buildInvocation host request=.ok spec) :
    ∃ n ≤ events.length,∃ (before : CompilerSession) (objects : List IntermediateArtifact),
      (sys.run (events.take n)).rt.find sid=some before ∧
      (∀ dependency ∈ node.dependsOn,∃ q,before.findPhase dependency=some q ∧ q.state=.committed) ∧
      spec.arguments.drop 5=objects.map (·.path) ∧ spec.inputs=objects.map MsvcAdapter.boundObject ∧
      (objects.Pairwise fun a b => a.id.value<b.id.value) ∧
      (∀ a' ∈ objects,∃ a,(sys.run (events.take n)).rt.artifacts.find a'.id=some a ∧
        a.authority=.authoritative ∧ a'.made=a.made) ∧
      ∀ id,id ∈ objects.map (·.id) ↔ ∃ dependency ∈ node.dependsOn,∃ q a,
        before.findPhase dependency=some q ∧ id ∈ q.outputs.map (·.id) ∧
        (sys.run (events.take n)).rt.artifacts.find id=some a ∧ a.format=.coffObject := by
  obtain ⟨n,hle,before,hbefore,hg,now⟩ := begun_registered hs ha he hu hf hp hb hn
  obtain ⟨hkind,_,_,hinputs,hartifacts⟩ := MsvcAdapter.executionRequest_ok hreq
  obtain ⟨objects,hobjects,hargs,hbound⟩ := MsvcAdapter.buildInvocation_link (hkind.trans hk) hspec
  have hobjects := MsvcAdapter.linkObjects_ok hobjects
  rw [hinputs,hartifacts] at hobjects
  have hmem (a' : IntermediateArtifact) : a' ∈ objects ↔ ∃ id ∈ p.inputs.map (·.id),
      (sys.run events).rt.artifacts.find id=some a' ∧ a'.format=.coffObject := by
    rw [hobjects]
    simp only [List.mem_filter,List.mem_filterMap,decide_eq_true_eq,List.mem_map]
    constructor
    · rintro ⟨⟨reference,hr,hfound⟩,hformat⟩
      exact ⟨reference.id,⟨reference,hr,rfl⟩,hfound,hformat⟩
    · rintro ⟨_,⟨reference,hr,rfl⟩,hfound,hformat⟩
      exact ⟨⟨reference,hr,hfound⟩,hformat⟩
  refine ⟨n,hle,before,objects,hbefore,hg.committed,hargs,hbound,?_,fun a' ho => ?_,fun id => ?_⟩
  · have hids := MsvcAdapter.filterMap_ids fun reference (hr : reference ∈ p.inputs) => by
      obtain ⟨_,a',_,_,hfound,_,hid⟩ := now _ (List.mem_map_of_mem hr)
      exact ⟨a',hfound,hid⟩
    have hordered : (p.inputs.map (·.id)).Pairwise fun a b => a.value<b.value :=
      List.pairwise_map.2 hg.ordered
    rw [← hids] at hordered
    rw [hobjects]
    exact (List.pairwise_map.1 hordered).sublist List.filter_sublist
  · obtain ⟨id,hid,hfound,_⟩ := (hmem a').1 ho
    obtain ⟨a,_,hbefore,hauth,hnow,hm,rfl⟩ := now id hid
    cases hfound.symm.trans hnow
    exact ⟨a,hbefore,hauth,hm⟩
  · constructor
    · intro hid
      obtain ⟨a',ho,rfl⟩ := List.mem_map.1 hid
      obtain ⟨id,hin,hfound,hformat⟩ := (hmem a').1 ho
      obtain ⟨a,_,hbefore,_,hnow,hm,rfl⟩ := now id hin
      cases hfound.symm.trans hnow
      obtain ⟨d,hd,q,hq,hout⟩ := (hg.outputs a'.id).1 hin
      have hsame : a'.format=a.format := congrArg (·.format) hm
      exact ⟨d,hd,q,a,hq,hout,hbefore,hsame.symm.trans hformat⟩
    · rintro ⟨d,hd,q,a,hq,hout,hbefore,hformat⟩
      have hin := (hg.outputs id).2 ⟨d,hd,q,hq,hout⟩
      obtain ⟨a₀,a',hbefore',_,hnow,hm,rfl⟩ := now id hin
      cases hbefore.symm.trans hbefore'
      have hsame : a'.format=a.format := congrArg (·.format) hm
      exact List.mem_map_of_mem ((hmem a').2 ⟨a'.id,hin,hnow,hsame.trans hformat⟩)

/-- However the callers of a process interleave, the program it runs at the end is an image that a
phase its plan waits for had made, authoritative at a moment when all of these stood COMMITTED; of
several, the one registered first. -/
theorem finalize_runs_committed (hs : sys.rt.sessions=∅) (ha : sys.rt.artifacts={})
    (he : ∀ e ∈ events,e.inProcess) (hu : ∀ e ∈ events,e.unadopted) {s : CompilerSession}
    (hf : (sys.run events).rt.find sid=some s) {p : PhaseRecord} (hp : s.findPhase pid=some p)
    (hb : p.attempts ≠ []) (hk : p.kind=.finalize) {node : PhaseNode} (hn : s.plan.find pid=some node)
    {workspace : Workspace} {host : Host} {request : PhaseExecutionRequest} {spec : InvocationSpec}
    (hreq : (sys.run events).rt.executionRequest s p workspace=.ok request)
    (hspec : MsvcAdapter.buildInvocation host request=.ok spec) :
    ∃ n ≤ events.length,∃ (before : CompilerSession) (image : IntermediateArtifact),
      (sys.run (events.take n)).rt.find sid=some before ∧
      (∀ dependency ∈ node.dependsOn,∃ q,before.findPhase dependency=some q ∧ q.state=.committed) ∧
      spec.executable=image.path ∧ spec.producedExecutable ∧ image.format=.coffImage ∧
      (∃ a,(sys.run (events.take n)).rt.artifacts.find image.id=some a ∧
        a.authority=.authoritative ∧ image.made=a.made) ∧
      (∃ dependency ∈ node.dependsOn,∃ q,before.findPhase dependency=some q ∧
        image.id ∈ q.outputs.map (·.id)) ∧
      ∀ dependency ∈ node.dependsOn,∀ q,before.findPhase dependency=some q →
        ∀ id ∈ q.outputs.map (·.id),∀ a,(sys.run (events.take n)).rt.artifacts.find id=some a →
          a.format=.coffImage → image.id.value ≤ id.value := by
  obtain ⟨n,hle,before,hbefore,hg,now⟩ := begun_registered hs ha he hu hf hp hb hn
  obtain ⟨hkind,_,_,hinputs,hartifacts⟩ := MsvcAdapter.executionRequest_ok hreq
  obtain ⟨image,himage,hexe,hproduced⟩ := MsvcAdapter.buildInvocation_finalize (hkind.trans hk) hspec
  rw [hinputs,hartifacts] at himage
  have hids := MsvcAdapter.filterMap_ids fun reference (hr : reference ∈ p.inputs) => by
    obtain ⟨_,a',_,_,hfound,_,hid⟩ := now _ (List.mem_map_of_mem hr)
    exact ⟨a',hfound,hid⟩
  have hordered : (p.inputs.map (·.id)).Pairwise fun a b => a.value<b.value :=
    List.pairwise_map.2 hg.ordered
  rw [← hids] at hordered
  obtain ⟨hformat,first,rest,hsplit,hnone⟩ := List.find?_eq_some_iff_append.1 himage
  have hleast := (List.pairwise_append.1 (hsplit ▸ List.pairwise_map.1 hordered)).2.1
  obtain ⟨reference,hr,hfound⟩ := List.mem_filterMap.1 (List.mem_of_find?_eq_some himage)
  obtain ⟨a,a',hbeforehand,hauth,hnow,hm,hid⟩ := now _ (List.mem_map_of_mem hr)
  cases hfound.symm.trans hnow
  refine ⟨n,hle,before,image,hbefore,hg.committed,hexe,hproduced,of_decide_eq_true hformat,
    ⟨a,hid ▸ hbeforehand,hauth,hm⟩,(hg.outputs _).1 (hid ▸ List.mem_map_of_mem hr),?_⟩
  intro d hd q hq id hout b hb hbf
  obtain ⟨c,c',hc,_,hcnow,hcm,rfl⟩ := now id ((hg.outputs id).2 ⟨d,hd,q,hq,hout⟩)
  cases hb.symm.trans hc
  obtain ⟨other,ho,hoid⟩ := List.mem_map.1 ((hg.outputs c'.id).2 ⟨d,hd,q,hq,hout⟩)
  have hmem : c' ∈ p.inputs.filterMap fun reference =>
      (sys.run events).rt.artifacts.find reference.id :=
    List.mem_filterMap.2 ⟨other,ho,hoid ▸ hcnow⟩
  have hcf : c'.format=.coffImage := (congrArg (·.format) hcm).trans hbf
  rw [hsplit] at hmem
  rcases List.mem_append.1 hmem with hmem | hmem
  · have hno := hnone c' hmem
    simp [hcf] at hno
  · rcases List.mem_cons.1 hmem with rfl | hmem
    · exact UInt64.le_refl _
    · exact UInt64.le_of_lt (List.rel_of_pairwise_cons hleast hmem)

/-- The run links the objects of both sources, the one registered first first, each made and
authoritative before. -/
theorem link_names_objects_of_linkedPair : ∃ s p request spec,
    (Sample.msvc.run Sample.linkedPair).rt.find ⟨1⟩=some s ∧ s.findPhase ⟨4⟩=some p ∧
    (Sample.msvc.run Sample.linkedPair).rt.executionRequest s p
      { root := ascii "C:\\work",valid := true }=.ok request ∧
    MsvcAdapter.buildInvocation {} request=.ok spec ∧
    spec.arguments.drop 5=[ascii "util.obj",ascii "main.obj"] ∧
    ∃ (n : Nat) (objects : List IntermediateArtifact),spec.arguments.drop 5=objects.map (·.path) ∧
      (objects.Pairwise fun a b => a.id.value<b.id.value) ∧
      ∀ a' ∈ objects,∃ a,
        (Sample.msvc.run (Sample.linkedPair.take n)).rt.artifacts.find a'.id=some a ∧
        a.authority=.authoritative ∧ a'.made=a.made := by
  obtain ⟨s,p,node,request,spec,hs,hp,hb,hn,hreq,hspec,hpasses⟩ :=
    Sample.built_of_builds Sample.linkedPair_builds.1
  obtain ⟨hk,hargs⟩ := of_decide_eq_true hpasses
  obtain ⟨n,_,_,objects,_,_,hobjects,_,hordered,hmade,_⟩ := link_names_objects rfl rfl
    (fun e he => (Sample.linkedPair_calls e he).1) (fun e he => (Sample.linkedPair_calls e he).2)
    hs hp hb hk hn hreq hspec
  exact ⟨s,p,request,spec,hs,hp,hreq,hspec,hargs,n,objects,hobjects,hordered,hmade⟩

/-- The run ends with the image the link has made, which was authoritative before. -/
theorem finalize_runs_committed_of_linkedPair : ∃ s p request spec,
    (Sample.msvc.run Sample.linkedPair).rt.find ⟨1⟩=some s ∧ s.findPhase ⟨5⟩=some p ∧
    (Sample.msvc.run Sample.linkedPair).rt.executionRequest s p
      { root := ascii "C:\\work",valid := true }=.ok request ∧
    MsvcAdapter.buildInvocation {} request=.ok spec ∧ spec.executable=ascii "main.exe" ∧
    ∃ (n : Nat) (image : IntermediateArtifact),spec.executable=image.path ∧
      image.format=.coffImage ∧
      ∃ a,(Sample.msvc.run (Sample.linkedPair.take n)).rt.artifacts.find image.id=some a ∧
        a.authority=.authoritative ∧ image.made=a.made := by
  obtain ⟨s,p,node,request,spec,hs,hp,hb,hn,hreq,hspec,hpasses⟩ :=
    Sample.built_of_builds Sample.linkedPair_builds.2
  obtain ⟨hk,hexe⟩ := of_decide_eq_true hpasses
  obtain ⟨n,_,_,image,_,_,hpath,_,hformat,hmade,_⟩ := finalize_runs_committed rfl rfl
    (fun e he => (Sample.linkedPair_calls e he).1) (fun e he => (Sample.linkedPair_calls e he).2)
    hs hp hb hk hn hreq hspec
  exact ⟨s,p,request,spec,hs,hp,hreq,hspec,hexe,n,image,hpath,hformat,hmade⟩

end System

end CompilerFabric
