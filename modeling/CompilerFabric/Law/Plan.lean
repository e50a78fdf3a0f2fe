import CompilerFabric.Core.Kahn

namespace CompilerFabric

open Base

namespace PlanData

/-- A phase `a` of the list declares that it depends on `b`. -/
def Needs (nodes : List PhaseNode) (a b : CompilerPhaseId) : Prop :=
  ∃ node ∈ nodes,node.id=a ∧ b ∈ node.dependsOn

/-- No phase of the list depends on this one. -/
def Final (nodes : List PhaseNode) (node : PhaseNode) : Prop :=
  ∀ other ∈ nodes,node.id ∉ other.dependsOn

/-- What a plan is for: its order can be followed, and leads to one phase everything is for. -/
structure Sound (d : PlanData) : Prop where
  order : d.order.Perm (d.nodes.map (·.id))
  present : ∀ node ∈ d.nodes,node.id.present
  distinct : (d.nodes.map (·.id)).Nodup
  precedes : ∀ node ∈ d.nodes,∀ dependency ∈ node.dependsOn,
    d.order.idxOf dependency<d.order.idxOf node.id
  sink : ∃ sink ∈ d.nodes,sink.mandatory ∧ d.order.getLast?=some sink.id ∧
    (∀ node ∈ d.nodes,Final d.nodes node ↔ node=sink) ∧
    ∀ node ∈ d.nodes,Relation.ReflTransGen (Needs d.nodes) sink.id node.id
  fanIn : ∀ node ∈ d.nodes,node.fanIn →
    1 ≤ node.requiredInputs.toNat ∧ node.requiredInputs.toNat ≤ node.dependsOn.length

/-- A list of phases with which nothing is wrong. -/
structure Sensible (nodes : List PhaseNode) : Prop where
  nonempty : nodes ≠ []
  ceiling : nodes.length ≤ kMaxPhases
  present : ∀ node ∈ nodes,node.id.present
  distinct : (nodes.map (·.id)).Nodup
  known : ∀ node ∈ nodes,∀ dependency ∈ node.dependsOn,dependency ∈ nodes.map (·.id)
  acyclic : ∀ id,¬Relation.TransGen (Needs nodes) id id
  fanIn : ∀ node ∈ nodes,node.fanIn →
    1 ≤ node.requiredInputs.toNat ∧ node.requiredInputs.toNat ≤ node.dependsOn.length
  contributes : ∀ node ∈ nodes,∃ sink ∈ nodes,sink.mandatory ∧ Final nodes sink ∧
    Relation.ReflTransGen (Needs nodes) sink.id node.id

variable {nodes : List PhaseNode} {node : PhaseNode} {id primary : CompilerPhaseId}
  {seen order reached rest : List CompilerPhaseId}

theorem checkIdentities_ok : checkIdentities seen nodes=.ok () ↔
    (∀ node ∈ nodes,node.id.present ∧ node.id ∉ seen) ∧ (nodes.map (·.id)).Nodup := by
  induction nodes generalizing seen with
  | nil => simp [checkIdentities]
  | cons node rest ih =>
    rw [checkIdentities]
    split_ifs with hp hs
    · simp_all [refuse]
    · simp_all
    · simp only [Bool.not_eq_true',Bool.not_eq_false] at hp
      rw [ih,List.map_cons,List.nodup_cons]
      constructor
      · rintro ⟨hall,hn⟩
        refine ⟨?_,?_,hn⟩
        · intro x hx
          rcases List.mem_cons.1 hx with rfl | hx
          · exact ⟨hp,hs⟩
          · exact ⟨(hall x hx).1,fun h => (hall x hx).2 (List.mem_cons_of_mem _ h)⟩
        · intro hm
          have ⟨x,hx,he⟩ := List.mem_map.1 hm
          exact (hall x hx).2 (he ▸ List.mem_cons_self)
      · rintro ⟨hall,hnew,hn⟩
        refine ⟨fun x hx => ⟨(hall x (List.mem_cons_of_mem _ hx)).1,?_⟩,hn⟩
        intro hm
        rcases List.mem_cons.1 hm with he | hm
        · exact hnew (he ▸ List.mem_map_of_mem hx)
        · exact (hall x (List.mem_cons_of_mem _ hx)).2 hm

theorem checkDependency_ok {ids : List CompilerPhaseId} {dependency : CompilerPhaseId} :
    checkDependency ids node dependency=.ok () ↔ dependency ≠ node.id ∧ dependency ∈ ids := by
  unfold checkDependency
  split_ifs with h h' <;> simp_all

theorem checkFanIn_ok : checkFanIn node=.ok () ↔ (node.fanIn →
    1 ≤ node.requiredInputs.toNat ∧ node.requiredInputs.toNat ≤ node.dependsOn.length) := by
  have hz : node.requiredInputs=0 ↔ node.requiredInputs.toNat=0 := UInt64.toNat_inj.symm
  unfold checkFanIn
  split_ifs with h
  · simp only [false_iff,Classical.not_imp]
    refine ⟨h.1,?_⟩
    rcases h.2 with h | h
    · have := hz.1 h
      omega
    · omega
  · simp only [true_iff]
    intro hf
    have hn := not_or.1 fun ho => h ⟨hf,ho⟩
    rw [hz] at hn
    omega

/-- Everything `build` asks of its list. -/
theorem build_ok_iff {d : PlanData} : build nodes=.ok d ↔
    nodes ≠ [] ∧ nodes.length ≤ kMaxPhases ∧ (∀ node ∈ nodes,node.id.present) ∧
    (nodes.map (·.id)).Nodup ∧
    (∀ node ∈ nodes,∀ dependency ∈ node.dependsOn,
      dependency ≠ node.id ∧ dependency ∈ nodes.map (·.id)) ∧
    (∀ node ∈ nodes,node.fanIn →
      1 ≤ node.requiredInputs.toNat ∧ node.requiredInputs.toNat ≤ node.dependsOn.length) ∧
    (topologicalSort nodes).length=nodes.length ∧
    (∃ node ∈ nodes,Final nodes node ∧ node.mandatory) ∧
    (∀ node ∈ nodes,node.id ∈ reachesPrimary nodes ((topologicalSort nodes).getLastD {}) []
      (topologicalSort nodes).reverse) ∧
    d=⟨nodes,nodes.map fun node => dependentsOf nodes node.id,topologicalSort nodes⟩ := by
  have hfinal (node : PhaseNode) : (dependentsOf nodes node.id).isEmpty ↔ Final nodes node := by
    rw [List.isEmpty_iff,List.eq_nil_iff_forall_not_mem]
    constructor
    · intro h other ho hd
      exact h other.id (mem_dependentsOf.2 ⟨other,ho,rfl,hd⟩)
    · intro h x hx
      have ⟨other,ho,_,hd⟩ := mem_dependentsOf.1 hx
      exact h other ho hd
  simp only [build,check_ok,ensure_ok,checkIdentities_ok,forM_ok,checkDependency_ok,checkFanIn_ok,
    List.any_eq_true,Bool.and_eq_true,hfinal,List.not_mem_nil,not_false_eq_true,and_true,and_assoc]
  simp only [pure,Except.pure,Except.ok.injEq,eq_comm (a := d)]

theorem names_iff {a b : CompilerPhaseId} (hn : (nodes.map (·.id)).Nodup) :
    (graph nodes).Names a b ↔ Needs nodes a b := by
  rw [Graph.Names]
  constructor
  · intro h
    have h : b ∈ ((nodes.find? (·.id=a)).map (·.dependsOn)).getD [] := h
    cases hf : nodes.find? (·.id=a) with
    | none =>
      rw [hf] at h
      cases h
    | some node =>
      rw [hf] at h
      exact ⟨node,List.mem_of_find?_eq_some hf,by simpa using List.find?_some hf,h⟩
  · rintro ⟨node,hm,rfl,hb⟩
    rwa [graph_next hn hm]

theorem names_eq (hn : (nodes.map (·.id)).Nodup) : (graph nodes).Names=Needs nodes := by
  funext a b
  exact propext (names_iff hn)

/-- The scan only collects phases that the primary one needs, itself or through others. -/
theorem reachesPrimary_sound (hr : ∀ x ∈ reached,Relation.ReflTransGen (Needs nodes) primary x)
    (h : id ∈ reachesPrimary nodes primary reached rest) :
    Relation.ReflTransGen (Needs nodes) primary id := by
  induction rest generalizing reached with
  | nil => exact hr id h
  | cons x rest ih =>
    rw [reachesPrimary] at h
    refine ih ?_ h
    intro y hy
    split at hy
    · next hx =>
      rcases List.mem_cons.1 hy with rfl | hy
      · rcases hx with rfl | ⟨d,hd,hm⟩
        · exact .refl
        · have ⟨node,hnode,he,hd⟩ := mem_dependentsOf.1 hd
          exact (hr d hm).tail ⟨node,hnode,he,hd⟩
      · exact hr y hy
    · exact hr y hy

/-- Backwards through an order, whatever needs a phase comes before it, so nothing is missed. -/
theorem reachesPrimary_complete (hn : (nodes.map (·.id)).Nodup)
    (ho : (graph nodes).Released order) (hall : ∀ node ∈ nodes,node.id ∈ order)
    {pre post : List CompilerPhaseId} (hsplit : order=pre++post)
    (hr : ∀ x ∈ post,Relation.ReflTransGen (Needs nodes) primary x → x ∈ reached)
    (h : Relation.ReflTransGen (Needs nodes) primary id) (hid : id ∈ pre ∨ id ∈ reached) :
    id ∈ reachesPrimary nodes primary reached pre.reverse := by
  induction pre using List.reverseRecOn generalizing post reached with
  | nil => exact hid.resolve_left fun h => nomatch h
  | append_singleton pre x ih =>
    rw [List.reverse_append,List.reverse_singleton,List.singleton_append,reachesPrimary]
    have hsplit' : order=pre++x::post := by rw [hsplit,List.append_assoc]; rfl
    have hfound : Relation.ReflTransGen (Needs nodes) primary x →
        x=primary ∨ ∃ d ∈ dependentsOf nodes x,d ∈ reached := by
      intro hreach
      rcases Relation.ReflTransGen.cases_tail hreach with he | ⟨d,hd,node,hnode,rfl,hneed⟩
      · exact .inl he
      · refine .inr ⟨node.id,mem_dependentsOf.2 ⟨node,hnode,rfl,hneed⟩,hr _ ?_ hd⟩
        -- the dependent comes after the phase
        have hlt := ho.before (hall node hnode) (by rwa [graph_next hn hnode])
        have hm := hall node hnode
        rw [hsplit'] at hm hlt
        have hnodup := ho.nodup
        rw [hsplit',List.nodup_append] at hnodup
        have hxpre : x ∉ pre := fun h => hnodup.2.2 x h x List.mem_cons_self rfl
        rw [List.idxOf_append_of_notMem hxpre,List.idxOf_cons_self,Nat.add_zero] at hlt
        rcases List.mem_append.1 hm with hm | hm
        · rw [List.idxOf_append_of_mem hm] at hlt
          exact absurd (List.idxOf_lt_length_of_mem hm) (Nat.not_lt.2 (Nat.le_of_lt hlt))
        · rcases List.mem_cons.1 hm with he | hm
          · rw [he,List.idxOf_append_of_notMem hxpre,List.idxOf_cons_self] at hlt
            exact absurd hlt (Nat.lt_irrefl _)
          · exact hm
    refine ih hsplit' ?_ ?_
    · intro y hy hreach
      rcases List.mem_cons.1 hy with rfl | hy
      · rw [if_pos (hfound hreach)]
        exact List.mem_cons_self
      · have hm := hr y hy hreach
        split
        · exact List.mem_cons_of_mem _ hm
        · exact hm
    · rcases hid with hid | hid
      · rcases List.mem_append.1 hid with hid | hid
        · exact .inl hid
        · cases List.mem_singleton.1 hid
          rw [if_pos (hfound h)]
          exact .inr List.mem_cons_self
      · right
        split
        · exact List.mem_cons_of_mem _ hid
        · exact hid

theorem eq_of_id {a b : PhaseNode} (hn : (nodes.map (·.id)).Nodup) (ha : a ∈ nodes) (hb : b ∈ nodes)
    (h : a.id=b.id) : a=b := by
  have hf := find_of_mem hn ha
  rw [h,find_of_mem hn hb] at hf
  exact (Option.some.inj hf).symm

/-- Nothing depends on the last phase of an order. -/
theorem final_of_last (hn : (nodes.map (·.id)).Nodup) (ho : (graph nodes).Released order)
    (hall : ∀ node ∈ nodes,node.id ∈ order) (hlast : order.getLast?=some node.id) :
    Final nodes node := by
  intro other hother hd
  have hlt := ho.before (hall other hother) (by rwa [graph_next hn hother])
  have ⟨pre,he⟩ := List.getLast?_eq_some_iff.1 hlast
  have hnodup := ho.nodup
  rw [he,List.nodup_append] at hnodup
  have hnew : node.id ∉ pre := fun h => hnodup.2.2 _ h _ (List.mem_singleton.2 rfl) rfl
  have hm := List.idxOf_lt_length_of_mem (hall other hother)
  rw [he,List.length_append,List.length_singleton] at hm
  rw [he,List.idxOf_append_of_notMem hnew,List.idxOf_cons_self] at hlt
  omega

/-- The order of a list without cycles has all its phases, and a last one. -/
theorem topologicalSort_ordered (hn : (nodes.map (·.id)).Nodup) (hne : nodes ≠ [])
    (hl : (topologicalSort nodes).length=nodes.length) :
    (topologicalSort nodes).Perm (nodes.map (·.id)) ∧
      ∃ last ∈ nodes,(topologicalSort nodes).getLast?=some last.id ∧
        (topologicalSort nodes).getLastD {}=last.id ∧ Final nodes last := by
  have ⟨ho,_⟩ := topologicalSort_spec hn
  have hperm : (topologicalSort nodes).Perm (nodes.map (·.id)) :=
    ho.perm_of_length (by rw [hl]; exact Nat.le_of_eq (List.length_map _))
  refine ⟨hperm,?_⟩
  have hall (node : PhaseNode) (h : node ∈ nodes) : node.id ∈ topologicalSort nodes :=
    hperm.mem_iff.2 (List.mem_map_of_mem h)
  cases hg : (topologicalSort nodes).getLast? with
  | none =>
    rw [List.getLast?_eq_none_iff] at hg
    rw [hg] at hl
    exact absurd (List.eq_nil_of_length_eq_zero hl.symm) hne
  | some x =>
    have hx := hperm.mem_iff.1 (List.mem_of_getLast? hg)
    have ⟨last,hm,he⟩ := List.mem_map.1 hx
    subst he
    refine ⟨last,hm,rfl,?_,final_of_last hn ho hall hg⟩
    rw [List.getLastD_eq_getLast?,hg]
    rfl

theorem sound_of_build {d : PlanData} (h : build nodes=.ok d) : d.nodes=nodes ∧ d.Sound := by
  have ⟨hne,_,hpresent,hn,_,hfan,hl,⟨final,hfinal,hf,hmandatory⟩,hreached,he⟩ := build_ok_iff.1 h
  have ⟨ho,_⟩ := topologicalSort_spec hn
  have ⟨hperm,last,hlast,hget,hgetD,hlf⟩ := topologicalSort_ordered hn hne hl
  rw [hgetD] at hreached
  have hreach (node : PhaseNode) (hm : node ∈ nodes) :
      Relation.ReflTransGen (Needs nodes) last.id node.id :=
    reachesPrimary_sound (by simp) (hreached node hm)
  have hsingle (node : PhaseNode) (hm : node ∈ nodes) : Final nodes node ↔ node=last := by
    constructor
    · intro hnode
      rcases (hreach node hm).cases_tail with he | ⟨d,_,other,hother,_,hd⟩
      · exact eq_of_id hn hm hlast he
      · exact absurd hd (hnode other hother)
    · rintro rfl
      exact hlf
  subst he
  refine ⟨rfl,hperm,hpresent,hn,?_,⟨last,hlast,?_,hget,hsingle,hreach⟩,hfan⟩
  · intro node hm dependency hd
    exact ho.before (hperm.mem_iff.2 (List.mem_map_of_mem hm)) (by rwa [graph_next hn hm])
  · exact (hsingle final hfinal).1 hf ▸ hmandatory

theorem acyclic_of_build {d : PlanData} (h : build nodes=.ok d) (id : CompilerPhaseId) :
    ¬Relation.TransGen (Needs nodes) id id := by
  intro hc
  have ⟨hne,_,_,hn,_,_,hl,_⟩ := build_ok_iff.1 h
  have ⟨ho,_⟩ := topologicalSort_spec hn
  have ⟨hperm,_⟩ := topologicalSort_ordered hn hne hl
  have ⟨_,⟨node,hm,hid,_⟩,_⟩ := Relation.TransGen.head'_iff.1 hc
  subst hid
  refine ho.acyclic (hperm.mem_iff.2 (List.mem_map_of_mem hm)) ?_
  rwa [names_eq hn]

theorem Sensible.of_build {d : PlanData} (h : build nodes=.ok d) : Sensible nodes := by
  have ⟨hne,hceiling,hpresent,hn,hknown,hfan,_⟩ := build_ok_iff.1 h
  have ⟨he,hs⟩ := sound_of_build h
  have ⟨sink,hm,hmandatory,_,hsingle,hreach⟩ := hs.sink
  rw [he] at hm hsingle hreach
  refine ⟨hne,hceiling,hpresent,hn,?_,acyclic_of_build h,hfan,?_⟩
  · exact fun node hm dependency hd => (hknown node hm dependency hd).2
  · exact fun node hnode =>
      ⟨sink,hm,hmandatory,(hsingle sink hm).2 rfl,hreach node hnode⟩

/-- A list with which nothing is wrong is accepted if one phase is all of it for, and otherwise
refused for the phases that do not lead to the last one. -/
theorem Sensible.build_iff (h : Sensible nodes) : (∃ d,build nodes=.ok d) ↔
    ∃ sink ∈ nodes,∀ node ∈ nodes,Final nodes node ↔ node=sink := by
  have hn := h.distinct
  constructor
  · rintro ⟨d,hd⟩
    have ⟨he,hs⟩ := sound_of_build hd
    have ⟨sink,hm,_,_,hsingle,_⟩ := hs.sink
    rw [he] at hm hsingle
    exact ⟨sink,hm,hsingle⟩
  · rintro ⟨sink,hsink,hsingle⟩
    have ⟨ho,hx⟩ := topologicalSort_spec hn
    have hknown : ∀ id ∈ (graph nodes).nodes,∀ b ∈ (graph nodes).next id,b ∈ (graph nodes).nodes := by
      intro id hid b hb
      have ⟨node,hm,he⟩ := List.mem_map.1 hid
      rw [← he,graph_next hn hm] at hb
      exact h.known node hm b hb
    have hall := (ho.covers_iff hx hknown).2 fun id _ => names_eq hn ▸ h.acyclic id
    have hl : (topologicalSort nodes).length=nodes.length := by
      have hle := ho.length_le
      have hge := (hn.subperm (fun id hid => hall id hid)).length_le
      rw [List.length_map] at hge
      exact Nat.le_antisymm (hle.trans (Nat.le_of_eq (List.length_map _))) hge
    have ⟨hperm,last,hlast,hget,hgetD,hlf⟩ := topologicalSort_ordered hn h.nonempty hl
    have hls := (hsingle last hlast).1 hlf
    have hreach (node : PhaseNode) (hm : node ∈ nodes) :
        Relation.ReflTransGen (Needs nodes) last.id node.id := by
      have ⟨s,hs,_,hf,hr⟩ := h.contributes node hm
      rw [hls,← (hsingle s hs).1 hf]
      exact hr
    have ⟨s,hs,hmandatory,hf,_⟩ := h.contributes sink hsink
    refine ⟨_,build_ok_iff.2 ⟨h.nonempty,h.ceiling,h.present,hn,?_,h.fanIn,hl,
      ⟨s,hs,hf,hmandatory⟩,?_,rfl⟩⟩
    · intro node hm dependency hd
      refine ⟨?_,h.known node hm dependency hd⟩
      rintro rfl
      exact h.acyclic node.id (.single ⟨node,hm,rfl,hd⟩)
    · intro node hm
      have hmem : ∀ node ∈ nodes,node.id ∈ topologicalSort nodes := fun node hm =>
        hall node.id (List.mem_map_of_mem hm)
      rw [hgetD]
      exact reachesPrimary_complete hn ho hmem (List.append_nil _).symm (by simp)
        (hreach node hm) (.inl (hmem node hm))

end PlanData

namespace Sample

/-- Two units and the link that takes both in, one of them twice. -/
def unitPhases : List PhaseNode :=
  [{ id := ⟨1⟩,kind := .codegen },{ id := ⟨2⟩,kind := .codegen },
    { id := ⟨3⟩,kind := .link,dependsOn := [⟨2⟩,⟨1⟩,⟨2⟩],fanIn := true,requiredInputs := 3 }]

/-- Two images that have nothing to do with each other. -/
def twoImages : List PhaseNode := [{ id := ⟨1⟩,kind := .link },{ id := ⟨2⟩,kind := .link }]

theorem unitPhases_build : ∃ plan,PhasePlan.build unitPhases=.ok plan := by
  have h : (PhasePlan.build unitPhases).toOption.isSome := by decide +kernel
  cases hb : PhasePlan.build unitPhases with
  | ok plan => exact ⟨plan,rfl⟩
  | error e =>
    rw [hb] at h
    cases h

end Sample

namespace PhasePlan

/-- Plan soundness. -/
theorem build_sound (nodes : List PhaseNode) :
    (∀ plan,build nodes=.ok plan → plan.nodes=nodes ∧ plan.toPlanData.Sound) ∧
    ((∃ id,Relation.TransGen (PlanData.Needs nodes) id id) → ∀ plan,build nodes ≠ .ok plan) := by
  constructor
  · intro plan h
    exact PlanData.sound_of_build (build_ok.1 h)
  · rintro ⟨id,hc⟩ plan h
    exact PlanData.acyclic_of_build (build_ok.1 h) id hc

theorem build_sound_unitPhases : ∃ plan,build Sample.unitPhases=.ok plan ∧ plan.Sound := by
  have ⟨plan,h⟩ := Sample.unitPhases_build
  exact ⟨plan,h,((build_sound _).1 plan h).2⟩

/-- A sensible list makes a plan exactly if it ends in one phase. -/
theorem build_iff_single {nodes : List PhaseNode} (h : PlanData.Sensible nodes) :
    (∃ plan,build nodes=.ok plan) ↔
      ∃ sink ∈ nodes,∀ node ∈ nodes,PlanData.Final nodes node ↔ node=sink := by
  rw [← h.build_iff]
  constructor
  · rintro ⟨plan,hp⟩
    exact ⟨plan.toPlanData,build_ok.1 hp⟩
  · rintro ⟨d,hd⟩
    cases hb : build nodes with
    | ok plan => exact ⟨plan,rfl⟩
    | error e =>
      unfold build at hb
      split at hb
      · next he => exact nomatch hd.symm.trans he
      · cases hb

theorem build_iff_single_unitPhases : ∃ sink ∈ Sample.unitPhases,∀ node ∈ Sample.unitPhases,
    PlanData.Final Sample.unitPhases node ↔ node=sink := by
  have ⟨plan,h⟩ := Sample.unitPhases_build
  exact (build_iff_single (.of_build (build_ok.1 h))).1 ⟨plan,h⟩

/-- Both images are mandatory, and the first is refused for contributing to no final artifact. -/
theorem not_build_twoImages : PlanData.Sensible Sample.twoImages ∧
    ∀ plan,build Sample.twoImages ≠ .ok plan := by
  have hfree : ∀ a b,¬PlanData.Needs Sample.twoImages a b := by
    rintro a b ⟨node,hm,_,hb⟩
    simp only [Sample.twoImages,List.mem_cons,List.not_mem_nil,or_false] at hm
    rcases hm with rfl | rfl <;> cases hb
  refine ⟨⟨by decide,by decide,by decide,by decide,?_,?_,by decide,?_⟩,?_⟩
  · decide
  · intro id hc
    have ⟨_,h,_⟩ := Relation.TransGen.head'_iff.1 hc
    exact hfree _ _ h
  · intro node hm
    refine ⟨node,hm,?_,fun other ho hd => hfree _ _ ⟨other,ho,rfl,hd⟩,.refl⟩
    simp only [Sample.twoImages,List.mem_cons,List.not_mem_nil,or_false] at hm
    rcases hm with rfl | rfl <;> rfl
  · intro plan h
    have hb : (PhasePlan.build Sample.twoImages).toOption.isSome=false := by decide +kernel
    rw [h] at hb
    cases hb

end PhasePlan

end CompilerFabric
