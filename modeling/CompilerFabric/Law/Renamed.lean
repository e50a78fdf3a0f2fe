import CompilerFabric.Law.Plan
import CompilerFabric.Runtime.Openings
import CompilerFabric.Law.Lawful

namespace CompilerFabric

open Base Base.Action

/-- The node under other identities. -/
def PhaseNode.renamed (f : CompilerPhaseId → CompilerPhaseId) (node : PhaseNode) : PhaseNode :=
  { node with id := f node.id,dependsOn := node.dependsOn.map f }

namespace PlanData

def renamed (f : CompilerPhaseId → CompilerPhaseId) (d : PlanData) : PlanData where
  nodes := d.nodes.map (PhaseNode.renamed f)
  dependents := d.dependents.map (·.map f)
  order := d.order.map f

/-- Phases that are told apart stay apart, and none of them is given the absent identity. -/
structure Renames (f : CompilerPhaseId → CompilerPhaseId) (nodes : List PhaseNode) : Prop where
  known : ∀ node ∈ nodes,node.id.present ∧ ∀ dependency ∈ node.dependsOn,
    dependency ∈ nodes.map (·.id)
  apart : ∀ a ∈ {}::nodes.map (·.id),∀ b ∈ {}::nodes.map (·.id),f a=f b → a=b
  absent : f {}={}

variable {f : CompilerPhaseId → CompilerPhaseId} {nodes : List PhaseNode} {node : PhaseNode}
  {id : CompilerPhaseId} {ids order : List CompilerPhaseId}

theorem Renames.eq_iff {a b : CompilerPhaseId} (hf : Renames f nodes) (ha : a ∈ {}::nodes.map (·.id))
    (hb : b ∈ {}::nodes.map (·.id)) : f a=f b ↔ a=b := ⟨hf.apart a ha b hb,fun h => h ▸ rfl⟩

theorem Renames.present (hf : Renames f nodes) (hm : node ∈ nodes) : (f node.id).present := by
  have hp := (hf.known node hm).1
  have hne : f node.id ≠ {} := by
    intro he
    rw [← hf.absent,hf.eq_iff (List.mem_cons_of_mem _ (List.mem_map_of_mem hm)) List.mem_cons_self] at he
    rw [he] at hp
    cases hp
  simpa [StrongId.present,StrongId.ext_iff] using hne

theorem Renames.mem_iff {a : CompilerPhaseId} (hf : Renames f nodes) (ha : a ∈ {}::nodes.map (·.id))
    (ho : order ⊆ {}::nodes.map (·.id)) : f a ∈ order.map f ↔ a ∈ order := by
  constructor
  · intro h
    obtain ⟨b,hb,he⟩ := List.mem_map.1 h
    rwa [← hf.apart b (ho hb) a ha he]
  · exact List.mem_map_of_mem

theorem dependentsOf_renamed {rest : List PhaseNode} (hr : rest ⊆ nodes) (hf : Renames f nodes)
    (hid : id ∈ {}::nodes.map (·.id)) :
    dependentsOf (rest.map (PhaseNode.renamed f)) (f id)=(dependentsOf rest id).map f := by
  induction rest with
  | nil => rfl
  | cons node rest ih =>
    obtain ⟨hn,hr⟩ := List.cons_subset.1 hr
    have hd := (hf.known node hn).2
    have hfilter : ((node.dependsOn.map f).filter (· = f id)).length=
        (node.dependsOn.filter (· = id)).length := by
      rw [List.filter_map,List.length_map]
      congr 1
      refine List.filter_congr fun d hm => ?_
      simp only [Function.comp_apply,decide_eq_decide]
      exact hf.eq_iff (List.mem_cons_of_mem _ (hd d hm)) hid
    have hcons (node : PhaseNode) (rest : List PhaseNode) (id : CompilerPhaseId) :
        dependentsOf (node::rest) id=
          List.replicate (node.dependsOn.filter (· = id)).length node.id++dependentsOf rest id := by
      rw [dependentsOf,List.flatMap_cons,List.map_const']
      rfl
    rw [List.map_cons,hcons,hcons,List.map_append,List.map_replicate,ih hr]
    exact congrArg (List.replicate · (f node.id)++_) hfilter

theorem findIdx_renamed {rest : List PhaseNode} (hr : rest ⊆ nodes) (hf : Renames f nodes)
    (hid : id ∈ {}::nodes.map (·.id)) :
    (rest.map (PhaseNode.renamed f)).findIdx (·.id=f id)=rest.findIdx (·.id=id) := by
  induction rest with
  | nil => rfl
  | cons node rest ih =>
    obtain ⟨hn,hr⟩ := List.cons_subset.1 hr
    have he : f node.id=f id ↔ node.id=id :=
      hf.eq_iff (List.mem_cons_of_mem _ (List.mem_map_of_mem hn)) hid
    rw [List.map_cons,List.findIdx_cons,List.findIdx_cons,ih hr]
    simp only [PhaseNode.renamed,he]

theorem foldl_release_renamed (hf : Renames f nodes) (hd : ids ⊆ nodes.map (·.id))
    (s : List Nat × List Nat) :
    (ids.map f).foldl (release (nodes.map (PhaseNode.renamed f))) s=ids.foldl (release nodes) s := by
  induction ids generalizing s with
  | nil => rfl
  | cons id ids ih =>
    obtain ⟨hid,hd⟩ := List.cons_subset.1 hd
    rw [List.map_cons,List.foldl_cons,List.foldl_cons]
    have hrelease : release (nodes.map (PhaseNode.renamed f)) s (f id)=release nodes s id := by
      simp only [release,findIdx_renamed (List.Subset.refl _) hf (List.mem_cons_of_mem _ hid)]
    rw [hrelease,ih hd]

theorem dependentsOf_subset : dependentsOf nodes id ⊆ nodes.map (·.id) := by
  intro d hd
  obtain ⟨node,hn,rfl,_⟩ := mem_dependentsOf.1 hd
  exact List.mem_map_of_mem hn

/-- The loop looks at positions: under other identities it takes the same turns. -/
theorem kahn_renamed (hf : Renames f nodes) (turns : Nat) (ready indegree : List Nat)
    (order : List CompilerPhaseId) :
    kahn (nodes.map (PhaseNode.renamed f)) turns ready indegree (order.map f)=
      (kahn nodes turns ready indegree order).map f := by
  induction turns generalizing ready indegree order with
  | zero => rfl
  | succ turns ih =>
    cases ready with
    | nil => rfl
    | cons current ready =>
      have hget : ((nodes.map (PhaseNode.renamed f)).getD current {}).id=
          f (nodes.getD current {}).id := by
        rw [List.getD_eq_getElem?_getD,List.getD_eq_getElem?_getD,List.getElem?_map]
        cases nodes[current]? with
        | none => exact hf.absent.symm
        | some node => rfl
      have hmem : (nodes.getD current {}).id ∈ {}::nodes.map (·.id) := by
        rw [List.getD_eq_getElem?_getD]
        cases h : nodes[current]? with
        | none => exact List.mem_cons_self
        | some node => exact List.mem_cons_of_mem _ (List.mem_map_of_mem (List.mem_of_getElem? h))
      have hrelease := foldl_release_renamed hf (@dependentsOf_subset nodes (nodes.getD current {}).id)
        (indegree,[])
      rw [← dependentsOf_renamed (List.Subset.refl nodes) hf hmem] at hrelease
      rw [kahn,kahn,hget,hrelease,← ih,List.map_append]
      rfl

theorem kahn_subset (turns : Nat) (ready indegree : List Nat)
    (ho : order ⊆ {}::nodes.map (·.id)) :
    kahn nodes turns ready indegree order ⊆ {}::nodes.map (·.id) := by
  induction turns generalizing ready indegree order with
  | zero => exact ho
  | succ turns ih =>
    cases ready with
    | nil => exact ho
    | cons current ready =>
      refine ih _ _ (List.append_subset.2 ⟨ho,?_⟩)
      intro id hid
      rw [List.mem_singleton.1 hid,List.getD_eq_getElem?_getD]
      cases h : nodes[current]? with
      | none => exact List.mem_cons_self
      | some node => exact List.mem_cons_of_mem _ (List.mem_map_of_mem (List.mem_of_getElem? h))

theorem topologicalSort_renamed (hf : Renames f nodes) :
    topologicalSort (nodes.map (PhaseNode.renamed f))=(topologicalSort nodes).map f := by
  have hdegrees : ((nodes.map (PhaseNode.renamed f)).map fun node => node.dependsOn.length)=
      nodes.map fun node => node.dependsOn.length := by
    rw [List.map_map]
    refine List.map_congr_left fun node _ => ?_
    exact List.length_map _
  simp only [topologicalSort,hdegrees,List.length_map]
  exact kahn_renamed hf _ _ _ []

theorem reachesPrimary_renamed {primary : CompilerPhaseId} {reached rest : List CompilerPhaseId}
    (hf : Renames f nodes) (hp : primary ∈ {}::nodes.map (·.id))
    (hreached : reached ⊆ {}::nodes.map (·.id)) (hrest : rest ⊆ {}::nodes.map (·.id)) :
    reachesPrimary (nodes.map (PhaseNode.renamed f)) (f primary) (reached.map f) (rest.map f)=
      (reachesPrimary nodes primary reached rest).map f := by
  induction rest generalizing reached with
  | nil => rfl
  | cons id rest ih =>
    obtain ⟨hid,hrest⟩ := List.cons_subset.1 hrest
    have hiff : (f id=f primary ∨ ∃ d ∈ dependentsOf (nodes.map (PhaseNode.renamed f)) (f id),
        d ∈ reached.map f) ↔ id=primary ∨ ∃ d ∈ dependentsOf nodes id,d ∈ reached := by
      rw [hf.eq_iff hid hp,dependentsOf_renamed (List.Subset.refl nodes) hf hid]
      have hin {d : CompilerPhaseId} (hd : d ∈ dependentsOf nodes id) :=
        hf.mem_iff (List.mem_cons_of_mem _ (dependentsOf_subset hd)) hreached
      constructor
      · rintro (h | ⟨_,hd,hm⟩)
        · exact .inl h
        · obtain ⟨d,hd',rfl⟩ := List.mem_map.1 hd
          exact .inr ⟨d,hd',(hin hd').1 hm⟩
      · rintro (h | ⟨d,hd,hm⟩)
        · exact .inl h
        · exact .inr ⟨f d,List.mem_map_of_mem hd,(hin hd).2 hm⟩
    rw [List.map_cons,reachesPrimary,reachesPrimary]
    simp only [hiff]
    split
    · exact ih (List.cons_subset.2 ⟨hid,hreached⟩) hrest
    · exact ih hreached hrest

theorem renamed_ids : (nodes.map (PhaseNode.renamed f)).map (·.id)=(nodes.map (·.id)).map f := by
  rw [List.map_map,List.map_map]
  rfl

theorem final_renamed (hf : Renames f nodes) (hm : node ∈ nodes) (h : Final nodes node) :
    Final (nodes.map (PhaseNode.renamed f)) (node.renamed f) := by
  intro other ho hd
  obtain ⟨other,ho',rfl⟩ := List.mem_map.1 ho
  obtain ⟨d,hd',he⟩ := List.mem_map.1 hd
  have hin := (hf.known other ho').2 d hd'
  have he : f d=f node.id := he
  rw [hf.eq_iff (List.mem_cons_of_mem _ hin) (List.mem_cons_of_mem _ (List.mem_map_of_mem hm))] at he
  exact h other ho' (he ▸ hd')

/-- A plan under other identities is a plan, with the schedule of the first. -/
theorem build_renamed {d : PlanData} (hf : Renames f nodes) (h : build nodes=.ok d) :
    build (nodes.map (PhaseNode.renamed f))=.ok (d.renamed f) := by
  obtain ⟨hne,hceiling,hpresent,hn,hknown,hfan,hl,⟨sink,hsink,hfinal,hmandatory⟩,hreached,rfl⟩ :=
    build_ok_iff.1 h
  have hin {node : PhaseNode} (hm : node ∈ nodes) : node.id ∈ {}::nodes.map (·.id) :=
    List.mem_cons_of_mem _ (List.mem_map_of_mem hm)
  have hsort := topologicalSort_renamed hf
  have hsubset : topologicalSort nodes ⊆ {}::nodes.map (·.id) :=
    kahn_subset _ _ _ (List.nil_subset _)
  refine build_ok_iff.2 ⟨?_,?_,?_,?_,?_,?_,?_,⟨sink.renamed f,List.mem_map_of_mem hsink,
    final_renamed hf hsink hfinal,hmandatory⟩,?_,?_⟩
  · simpa using hne
  · simpa using hceiling
  · simp only [List.forall_mem_map]
    exact fun node hm => hf.present hm
  · rw [renamed_ids]
    refine hn.map_on ?_
    intro a ha b hb
    exact hf.apart a (List.mem_cons_of_mem _ ha) b (List.mem_cons_of_mem _ hb)
  · simp only [List.forall_mem_map,renamed_ids,PhaseNode.renamed]
    intro node hm dependency hd
    obtain ⟨hself,hk⟩ := hknown node hm dependency hd
    refine ⟨?_,List.mem_map_of_mem hk⟩
    rwa [Ne,hf.eq_iff (List.mem_cons_of_mem _ hk) (hin hm)]
  · simp only [List.forall_mem_map,PhaseNode.renamed,List.length_map]
    exact hfan
  · rw [hsort,List.length_map,List.length_map]
    exact hl
  · have hlast : (topologicalSort (nodes.map (PhaseNode.renamed f))).getLastD {}=
        f ((topologicalSort nodes).getLastD {}) := by
      rw [hsort,List.getLastD_eq_getLast?,List.getLastD_eq_getLast?,List.getLast?_map]
      cases (topologicalSort nodes).getLast? with
      | none => exact hf.absent.symm
      | some _ => rfl
    have hmem : (topologicalSort nodes).getLastD {} ∈ {}::nodes.map (·.id) := by
      rw [List.getLastD_eq_getLast?]
      cases hg : (topologicalSort nodes).getLast? with
      | none => exact List.mem_cons_self
      | some _ => exact hsubset (List.mem_of_getLast? hg)
    have hreaches := @reachesPrimary_renamed _ _ _ [] (topologicalSort nodes).reverse hf hmem
      (List.nil_subset _) fun _ h => hsubset (List.mem_reverse.1 h)
    rw [hlast,hsort,← List.map_reverse]
    simp only [List.forall_mem_map]
    intro node hm
    exact hreaches ▸ List.mem_map_of_mem (hreached node hm)
  · simp only [renamed,hsort,List.map_map,PlanData.mk.injEq,true_and,and_true]
    refine List.map_congr_left fun node hm => ?_
    exact (dependentsOf_renamed (List.Subset.refl nodes) hf (hin hm)).symm

end PlanData

/-- Where `create_session` takes an identity of the adapter's plan. -/
def remapping (nodes : List PhaseNode) (a : IdAllocator .phase) (id : CompilerPhaseId) :
    CompilerPhaseId := ((remapIds nodes a).1.lookup id).getD {}

section Remapping

variable {nodes : List PhaseNode} {a : IdAllocator .phase} {id : CompilerPhaseId}

theorem remapping_cons (first : PhaseNode) (rest : List PhaseNode) (id : CompilerPhaseId) :
    remapping (first::rest) a id=if id=first.id then a.next.1 else remapping rest a.next.2 id := by
  rw [remapping,remapIds]
  dsimp only
  rw [List.lookup_cons]
  by_cases he : id=first.id
  · simp [he]
  · rw [show (id==first.id)=false by simpa using he,if_neg he]
    rfl

theorem remapping_unknown (h : id ∉ nodes.map (·.id)) : remapping nodes a id={} := by
  induction nodes generalizing a with
  | nil => rfl
  | cons first rest ih =>
    rw [List.map_cons,List.mem_cons,not_or] at h
    rw [remapping_cons,if_neg h.1,ih h.2]

theorem remapping_present (h : id ∈ nodes.map (·.id)) : (remapping nodes a id).present := by
  induction nodes generalizing a with
  | nil => cases h
  | cons first rest ih =>
    rw [remapping_cons]
    split
    · exact a.next_present
    · next hne => exact ih ((List.mem_cons.1 h).resolve_left hne)

/-- While identities are left, every phase is given one of its own. -/
theorem remapping_apart (hu : (remapIds nodes a).2.spent=false) :
    ∀ x ∈ nodes.map (·.id),∀ y ∈ nodes.map (·.id),remapping nodes a x=remapping nodes a y → x=y := by
  induction nodes generalizing a with
  | nil => exact fun _ h => absurd h List.not_mem_nil
  | cons first rest ih =>
    have hle := (remapIds_spec rest a.next.2).1
    have hlt := IdAllocator.drawn_lt (IdAllocator.unspent_of_le hle hu)
    have above {z : CompilerPhaseId} (hz : z ∈ rest.map (·.id)) : a.next.1 ≠ remapping rest a.next.2 z := by
      obtain ⟨node,hn,rfl⟩ := List.mem_map.1 hz
      obtain ⟨id,hl,hge,_⟩ := (remapIds_spec rest a.next.2).2 node hn
      intro he
      rw [remapping,hl,Option.getD_some] at he
      rw [← he] at hge
      omega
    intro x hx y hy
    rw [List.map_cons,List.mem_cons] at hx hy
    rw [remapping_cons,remapping_cons]
    by_cases hxf : x=first.id <;> by_cases hyf : y=first.id
    · exact fun _ => hxf.trans hyf.symm
    · rw [if_pos hxf,if_neg hyf]
      exact fun he => absurd he (above (hy.resolve_left hyf))
    · rw [if_neg hxf,if_pos hyf]
      exact fun he => absurd he.symm (above (hx.resolve_left hxf))
    · rw [if_neg hxf,if_neg hyf]
      exact ih hu x (hx.resolve_left hxf) y (hy.resolve_left hyf)

theorem remapping_renames {d : PlanData} (h : PlanData.build nodes=.ok d)
    (hf : ∀ x ∈ nodes.map (·.id),∀ y ∈ nodes.map (·.id),remapping nodes a x=remapping nodes a y → x=y) :
    PlanData.Renames (remapping nodes a) nodes := by
  obtain ⟨_,_,hpresent,_,hknown,_⟩ := PlanData.build_ok_iff.1 h
  have hne {x : CompilerPhaseId} (hx : x ∈ nodes.map (·.id)) : remapping nodes a x ≠ {} := by
    intro he
    have hp := remapping_present (a := a) hx
    rw [he] at hp
    cases hp
  have habsent : remapping nodes a {}={} := by
    refine remapping_unknown fun hm => ?_
    obtain ⟨node,hn,he⟩ := List.mem_map.1 hm
    have hp := hpresent node hn
    rw [he] at hp
    cases hp
  refine ⟨fun node hm => ⟨hpresent node hm,fun d hd => (hknown node hm d hd).2⟩,?_,habsent⟩
  intro x hx y hy he
  rcases List.mem_cons.1 hx with rfl | hx' <;> rcases List.mem_cons.1 hy with rfl | hy'
  · rfl
  · rw [habsent] at he
    exact absurd he.symm (hne hy')
  · rw [habsent] at he
    exact absurd he (hne hx')
  · exact hf x hx' y hy' he

theorem build_remapNode_iff {plan planned : PhasePlan} (hn : plan.nodes ≠ []) :
    PhasePlan.build (plan.nodes.map (remapNode (remapIds plan.nodes a).1))=.ok planned ↔
      PlanData.Renames (remapping plan.nodes a) plan.nodes ∧
        planned.toPlanData=plan.toPlanData.renamed (remapping plan.nodes a) := by
  have hb := PhasePlan.build_ok.1 ((PhasePlan.build_nodes_self plan).2 hn)
  have hmap : remapNode (remapIds plan.nodes a).1=PhaseNode.renamed (remapping plan.nodes a) := rfl
  rw [hmap,PhasePlan.build_ok]
  constructor
  · intro h
    obtain ⟨_,_,_,hids,_⟩ := PlanData.build_ok_iff.1 h
    rw [PlanData.renamed_ids] at hids
    have hf := remapping_renames hb fun x hx y hy he => List.inj_on_of_nodup_map hids hx hy he
    refine ⟨hf,?_⟩
    rw [PlanData.build_renamed hf hb] at h
    exact (Except.ok.inj h).symm
  · rintro ⟨hf,he⟩
    rw [he]
    exact PlanData.build_renamed hf hb

/-- Two phases of the adapter's plan are given one identity, or each of them its own. -/
theorem remapping_nodup {d : PlanData} (h : PlanData.build nodes=.ok d) :
    (nodes.map fun node => remapping nodes a node.id).Nodup ↔
      PlanData.Renames (remapping nodes a) nodes := by
  obtain ⟨_,_,_,hids,_⟩ := PlanData.build_ok_iff.1 h
  have hmap : nodes.map (fun node => remapping nodes a node.id)=
      (nodes.map (·.id)).map (remapping nodes a) := by
    rw [List.map_map]
    rfl
  rw [hmap]
  constructor
  · intro hn
    exact remapping_renames h fun x hx y hy he => List.inj_on_of_nodup_map hn hx hy he
  · intro hf
    exact hids.map_on fun x hx y hy he =>
      hf.apart x (List.mem_cons_of_mem _ hx) y (List.mem_cons_of_mem _ hy) he

/-- The plan `create_session` builds of the adapter's plan: it is refused exactly where two phases
were given one identity, which does not happen while identities are left, and it keeps the nodes, the
dependents and the schedule. -/
theorem build_remapped (plan : PhasePlan) (hn : plan.nodes ≠ []) (a : IdAllocator .phase) :
    ((remapIds plan.nodes a).2.spent=false →
      (plan.nodes.map fun node => remapping plan.nodes a node.id).Nodup) ∧
    ((∃ planned,PhasePlan.build (plan.nodes.map (remapNode (remapIds plan.nodes a).1))=.ok planned) ↔
      (plan.nodes.map fun node => remapping plan.nodes a node.id).Nodup) ∧
    ∀ planned,PhasePlan.build (plan.nodes.map (remapNode (remapIds plan.nodes a).1))=.ok planned →
      PlanData.Renames (remapping plan.nodes a) plan.nodes ∧
        planned.toPlanData=plan.toPlanData.renamed (remapping plan.nodes a) := by
  have hb := PhasePlan.build_ok.1 ((PhasePlan.build_nodes_self plan).2 hn)
  refine ⟨fun hu => ?_,?_,fun _ => (build_remapNode_iff hn).1⟩
  · exact (remapping_nodup hb).2 (remapping_renames hb (remapping_apart hu))
  · rw [remapping_nodup hb]
    constructor
    · rintro ⟨planned,h⟩
      exact ((build_remapNode_iff hn).1 h).1
    · intro hf
      have hbuilt := PlanData.build_renamed hf hb
      exact ⟨⟨_,.inr hbuilt⟩,PhasePlan.build_ok.2 hbuilt⟩

theorem build_remapped_unitPhases : ∃ plan,PhasePlan.build Sample.unitPhases=.ok plan ∧
    ∃ planned,PhasePlan.build (plan.nodes.map (remapNode (remapIds plan.nodes {}).1))=.ok planned ∧
      planned.toPlanData=plan.toPlanData.renamed (remapping plan.nodes {}) := by
  obtain ⟨plan,h⟩ := Sample.unitPhases_build
  have hnodes : plan.nodes=Sample.unitPhases := PlanData.build_nodes (PhasePlan.build_ok.1 h)
  have hn : plan.nodes ≠ [] := by
    rw [hnodes]
    exact List.cons_ne_nil _ _
  have hu : (remapIds plan.nodes {}).2.spent=false := by
    rw [hnodes]
    decide +kernel
  obtain ⟨hfresh,hbuilt,hkept⟩ := build_remapped plan hn {}
  obtain ⟨planned,hplanned⟩ := hbuilt.2 (hfresh hu)
  exact ⟨plan,h,planned,hplanned,(hkept planned hplanned).2⟩

end Remapping

end CompilerFabric
