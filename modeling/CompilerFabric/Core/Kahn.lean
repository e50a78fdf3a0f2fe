import CompilerFabric.Base.Order
import CompilerFabric.Core.Session

namespace CompilerFabric.PlanData

open Base

/-- Each phase names the ones it depends on. -/
def graph (nodes : List PhaseNode) : Graph CompilerPhaseId where
  nodes := nodes.map (·.id)
  next := fun id => ((nodes.find? (·.id=id)).map (·.dependsOn)).getD []

variable {nodes : List PhaseNode} {node : PhaseNode} {i j : Nat} {id : CompilerPhaseId}
  {order dependents : List CompilerPhaseId} {indegree ready released : List Nat}

theorem find_of_mem (hn : (nodes.map (·.id)).Nodup) (h : node ∈ nodes) :
    nodes.find? (·.id=node.id)=some node := by
  induction nodes with
  | nil => cases h
  | cons x rest ih =>
    rw [List.map_cons,List.nodup_cons] at hn
    rw [List.find?_cons]
    rcases List.mem_cons.1 h with rfl | h
    · simp
    · have hne : x.id ≠ node.id := fun he => hn.1 (he ▸ List.mem_map_of_mem h)
      simp only [hne,decide_false]
      exact ih hn.2 h

theorem graph_next (hn : (nodes.map (·.id)).Nodup) (h : node ∈ nodes) :
    (graph nodes).next node.id=node.dependsOn := by
  show ((nodes.find? (·.id=node.id)).map (·.dependsOn)).getD []=_
  rw [find_of_mem hn h]
  rfl

theorem findIdx_of_getElem (hn : (nodes.map (·.id)).Nodup) (h : nodes[i]?=some node) :
    nodes.findIdx (·.id=node.id)=i := by
  have ⟨hi,he⟩ := List.getElem?_eq_some_iff.1 h
  rw [List.findIdx_eq hi]
  refine ⟨by simp [he],?_⟩
  intro j hj
  have hlt : j<nodes.length := Nat.lt_trans hj hi
  simp only [decide_eq_false_iff_not]
  intro hid
  have hi' : i<(nodes.map (·.id)).length := by simpa using hi
  have hlt' : j<(nodes.map (·.id)).length := by simpa using hlt
  have hidx : j=i := (@List.Nodup.getElem_inj_iff _ _ hn j hlt' i hi').1 (by simpa [he] using hid)
  omega

/-- Where an edge into the phase leads from: a phase stands among the dependents of another once
for each time it declares it. -/
theorem dependentsOf_count (hn : (nodes.map (·.id)).Nodup) (h : node ∈ nodes) :
    (dependentsOf nodes id).count node.id=node.dependsOn.count id := by
  have absent {rest : List PhaseNode} (hr : node.id ∉ rest.map (·.id)) :
      (dependentsOf rest id).count node.id=0 := by
    refine List.count_eq_zero.2 fun hm => hr ?_
    have ⟨x,hx,hx'⟩ := List.mem_flatMap.1 hm
    have ⟨_,_,he⟩ := List.mem_map.1 hx'
    exact he ▸ List.mem_map_of_mem hx
  have self : ((node.dependsOn.filter (· = id)).map fun _ => node.id).count node.id=
      node.dependsOn.count id := by
    rw [List.map_const',List.count_replicate_self,List.count,List.countP_eq_length_filter]
    congr 1
  have other {x : PhaseNode} (hx : x.id ≠ node.id) :
      ((x.dependsOn.filter (· = id)).map fun _ => x.id).count node.id=0 := by
    rw [List.map_const',List.count_replicate,if_neg]
    simpa using hx
  induction nodes with
  | nil => cases h
  | cons x rest ih =>
    rw [List.map_cons,List.nodup_cons] at hn
    have hcons : dependentsOf (x::rest) id=
        ((x.dependsOn.filter (· = id)).map fun _ => x.id)++dependentsOf rest id := rfl
    rw [hcons,List.count_append]
    rcases List.mem_cons.1 h with rfl | h
    · rw [self,absent hn.1,Nat.add_zero]
    · have hne : x.id ≠ node.id := fun he => hn.1 (he ▸ List.mem_map_of_mem h)
      rw [other hne,Nat.zero_add]
      exact ih hn.2 h

theorem mem_dependentsOf {dependent : CompilerPhaseId} : dependent ∈ dependentsOf nodes id ↔
    ∃ node ∈ nodes,node.id=dependent ∧ id ∈ node.dependsOn := by
  simp only [dependentsOf,List.mem_flatMap,List.mem_map,List.mem_filter,decide_eq_true_eq]
  constructor
  · rintro ⟨node,hm,d,⟨hd,rfl⟩,he⟩
    exact ⟨node,hm,he,hd⟩
  · rintro ⟨node,hm,he,hd⟩
    exact ⟨node,hm,id,⟨hd,rfl⟩,he⟩

/-- What one turn of the loop does with the dependents: each indegree drops by the edges, and a
phase is released where that takes it to zero. -/
theorem foldl_release (hn : (nodes.map (·.id)).Nodup)
    (hlen : indegree.length=nodes.length) (hd : dependents ⊆ nodes.map (·.id))
    (hle : ∀ i node,nodes[i]?=some node → dependents.count node.id ≤ indegree.getD i 0)
    (hr : released.Nodup) (hz : ∀ i ∈ released,i<nodes.length ∧ indegree.getD i 0=0) :
    ∃ indegree' released',dependents.foldl (release nodes) (indegree,released)=
        (indegree',released') ∧ indegree'.length=nodes.length ∧ released'.Nodup ∧
      (∀ i ∈ released',i<nodes.length) ∧
      ∀ i node,nodes[i]?=some node →
        indegree'.getD i 0=indegree.getD i 0-dependents.count node.id ∧
        (i ∈ released' ↔ i ∈ released ∨
          node.id ∈ dependents ∧ indegree.getD i 0=dependents.count node.id) := by
  induction dependents generalizing indegree released with
  | nil =>
    refine ⟨indegree,released,rfl,hlen,hr,fun i hi => (hz i hi).1,fun i node _ => ?_⟩
    simp
  | cons d dependents ih =>
    have ⟨hmem,hd⟩ := List.cons_subset.1 hd
    have ⟨x,hx,hxd⟩ := List.mem_map.1 hmem
    have ⟨k,hk⟩ := List.getElem?_of_mem hx
    have hidx : nodes.findIdx (·.id=d)=k := by
      rw [← hxd]
      exact findIdx_of_getElem hn hk
    have hklt : k < indegree.length := hlen ▸ (List.getElem?_eq_some_iff.1 hk).1
    have hget (i : Nat) (v : Nat) : (indegree.set k v).getD i 0=
        if i=k then v else indegree.getD i 0 := by
      rw [List.getD_eq_getElem?_getD,List.getD_eq_getElem?_getD,List.getElem?_set]
      by_cases hi : k=i
      · rw [if_pos hi,if_pos (hi ▸ hklt),if_pos hi.symm]
        rfl
      · rw [if_neg hi,if_neg fun he => hi he.symm]
    have hother {i : Nat} {node : PhaseNode} (hi : nodes[i]?=some node) (hne : i ≠ k) :
        node.id ≠ d := by
      rintro rfl
      exact hne ((findIdx_of_getElem hn hi).symm.trans hidx)
    have hself {node : PhaseNode} (hi : nodes[k]?=some node) : node.id=d := by
      cases hk.symm.trans hi
      exact hxd
    have hpos := hle k x hk
    rw [hxd,List.count_cons_self] at hpos
    let degree := indegree.getD k 0-1
    have hstep : release nodes (indegree,released) d=
        (indegree.set k degree,if degree=0 then released++[k] else released) := by
      simp only [release,hidx]
      rfl
    have hnew : k ∉ released := by
      intro hm
      have h0 := (hz k hm).2
      omega
    have ⟨indegree',released',hfold,hlen',hnodup,hbound,hspec⟩ := @ih (indegree.set k degree)
      (if degree=0 then released++[k] else released) (by rw [List.length_set,hlen]) hd
      (by
        intro i node hi
        rw [hget]
        split
        · next he =>
          subst he
          rw [hself hi]
          omega
        · next hne =>
          have h := hle i node hi
          rwa [List.count_cons_of_ne (hother hi hne).symm] at h)
      (by
        split
        · refine List.nodup_append.2 ⟨hr,List.nodup_singleton _,?_⟩
          rintro y hy z hz rfl
          exact hnew (List.mem_singleton.1 hz ▸ hy)
        · exact hr)
      (by
        intro i hi
        rw [hget]
        split
        · next he =>
          subst he
          refine ⟨hlen ▸ hklt,?_⟩
          by_contra h0
          rw [if_neg h0] at hi
          exact hnew hi
        · next hne =>
          refine hz i ?_
          split at hi
          · exact (List.mem_append.1 hi).resolve_right fun h => hne (List.mem_singleton.1 h)
          · exact hi)
    refine ⟨indegree',released',?_,hlen',hnodup,hbound,?_⟩
    · rw [List.foldl_cons,hstep]
      exact hfold
    · intro i node hi
      have ⟨hdeg,hrel⟩ := hspec i node hi
      rw [hget] at hdeg hrel
      by_cases he : i=k
      · subst he
        rw [if_pos rfl] at hdeg hrel
        rw [hself hi] at hdeg hrel ⊢
        rw [List.count_cons_self]
        refine ⟨by omega,?_⟩
        rw [hrel]
        have hzero : d ∉ dependents → dependents.count d=0 := List.count_eq_zero.2
        have hcount : d ∈ dependents → 0<dependents.count d := List.count_pos_iff.2
        by_cases hm : d ∈ dependents
        · have h := hcount hm
          rw [if_neg (by omega)]
          simp only [hnew,false_or,hm,true_and,List.mem_cons,or_true]
          omega
        · have h := hzero hm
          simp only [hm,false_and,or_false,List.mem_cons,true_and,hnew,false_or]
          split
          · next h0 =>
            simp only [List.mem_append,List.mem_singleton,or_true,true_iff]
            omega
          · next h0 =>
            simp only [hnew,false_iff]
            omega
      · rw [if_neg he] at hdeg hrel
        have hne := hother hi he
        rw [List.count_cons_of_ne hne.symm]
        refine ⟨hdeg,hrel.trans ?_⟩
        rw [List.mem_cons]
        simp only [hne,false_or]
        refine or_congr ?_ Iff.rfl
        split
        · simp [he]
        · exact Iff.rfl

/-- Where the loop stands: what is released so far, the dependencies each phase still waits for,
and the phases that wait for none. -/
structure Sorting (nodes : List PhaseNode) (order : List CompilerPhaseId)
    (indegree ready : List Nat) : Prop where
  released : (graph nodes).Released order
  length : indegree.length=nodes.length
  degree : ∀ (i : Nat) (node : PhaseNode),nodes[i]?=some node →
    indegree.getD i 0=node.dependsOn.countP (· ∉ order)
  bounded : ∀ i ∈ ready,i<nodes.length
  nodup : ready.Nodup
  ready : ∀ (i : Nat) (node : PhaseNode),nodes[i]?=some node →
    (i ∈ ready ↔ node.id ∉ order ∧ ∀ d ∈ node.dependsOn,d ∈ order)

theorem Sorting.start (nodes : List PhaseNode) :
    Sorting nodes [] (nodes.map (·.dependsOn.length))
      ((List.range nodes.length).filter
        fun i => (nodes.map (·.dependsOn.length)).getD i 0==0) := by
  have hget {i : Nat} {node : PhaseNode} (hi : nodes[i]?=some node) :
      (nodes.map (·.dependsOn.length)).getD i 0=node.dependsOn.length := by
    rw [List.getD_eq_getElem?_getD,List.getElem?_map,hi]
    rfl
  refine ⟨.nil,List.length_map _,?_,?_,List.nodup_range.filter _,?_⟩
  · intro i node hi
    rw [hget hi]
    simp
  · intro i hi
    exact List.mem_range.1 (List.mem_filter.1 hi).1
  · intro i node hi
    have hlt : i<nodes.length := (List.getElem?_eq_some_iff.1 hi).1
    rw [List.mem_filter,hget hi,List.mem_range]
    simp [hlt,List.eq_nil_iff_forall_not_mem]

/-- One turn of the loop. -/
theorem Sorting.turn {current : Nat} (hn : (nodes.map (·.id)).Nodup)
    (h : Sorting nodes order indegree (current::ready)) :
    ∃ indegree' released,
      (dependentsOf nodes (nodes.getD current {}).id).foldl (release nodes) (indegree,[])=
        (indegree',released) ∧
      Sorting nodes (order++[(nodes.getD current {}).id]) indegree'
        (ready++released.insertionSort (· ≤ ·)) := by
  have hlt := h.bounded current List.mem_cons_self
  have ⟨node,hnode⟩ : ∃ node,nodes[current]?=some node := ⟨_,List.getElem?_eq_getElem hlt⟩
  have hcur : nodes.getD current {}=node := by rw [List.getD_eq_getElem?_getD,hnode]; rfl
  rw [hcur]
  have hmem : node ∈ nodes := List.mem_of_getElem? hnode
  have ⟨hnew,hdeps⟩ := (h.ready current node hnode).1 List.mem_cons_self
  have hcount (x : PhaseNode) :
      x.dependsOn.countP (· ∉ order)=
        x.dependsOn.countP (· ∉ order++[node.id])+x.dependsOn.count node.id := by
    induction x.dependsOn with
    | nil => rfl
    | cons d ds ih =>
      rw [List.countP_cons,List.countP_cons,List.count_cons,ih]
      by_cases hd : d=node.id
      · subst hd
        simp [hnew]
        omega
      · simp [hd]
        omega
  have hedge {i : Nat} {x : PhaseNode} (hi : nodes[i]?=some x) :
      (dependentsOf nodes node.id).count x.id=x.dependsOn.count node.id :=
    dependentsOf_count hn (List.mem_of_getElem? hi)
  have hin : dependentsOf nodes node.id ⊆ nodes.map (·.id) := by
    intro d hd
    have ⟨x,hx,he,_⟩ := mem_dependentsOf.1 hd
    exact he ▸ List.mem_map_of_mem hx
  have hnil : ([] : List Nat).Nodup := List.nodup_nil
  have ⟨indegree',released,hfold,hlen,hnodup,hbound,hspec⟩ := foldl_release hn h.length hin
    (by
      intro i x hi
      rw [h.degree i x hi,hedge hi,hcount x]
      exact Nat.le_add_left _ _)
    hnil (fun i hi => nomatch hi)
  have ⟨hcurrent,hready⟩ := List.nodup_cons.1 h.nodup
  have hsame {i : Nat} {x : PhaseNode} (hi : nodes[i]?=some x) : x.id=node.id ↔ i=current := by
    constructor
    · intro he
      rw [← findIdx_of_getElem hn hi,← findIdx_of_getElem hn hnode,he]
    · rintro rfl
      cases hnode.symm.trans hi
      rfl
  have hrel {i : Nat} {x : PhaseNode} (hi : nodes[i]?=some x) : i ∈ released ↔
      node.id ∈ x.dependsOn ∧ ∀ d ∈ x.dependsOn,d ∈ order++[node.id] := by
    rw [(hspec i x hi).2,h.degree i x hi,hedge hi,hcount x]
    have hin : x.id ∈ dependentsOf nodes node.id ↔ node.id ∈ x.dependsOn := by
      rw [← List.count_pos_iff,hedge hi,List.count_pos_iff]
    have hall : x.dependsOn.countP (· ∉ order++[node.id])=0 ↔
        ∀ d ∈ x.dependsOn,d ∈ order++[node.id] := by
      simp only [List.countP_eq_zero,decide_eq_true_eq,not_not]
    rw [hin,← hall]
    simp only [List.not_mem_nil,false_or]
    refine and_congr_right fun _ => ?_
    omega
  have hwaits {i : Nat} {x : PhaseNode} (hi : nodes[i]?=some x) (hm : i ∈ ready) :
      node.id ∉ x.dependsOn := by
    intro hd
    exact hnew (((h.ready i x hi).1 (List.mem_cons_of_mem _ hm)).2 _ hd)
  refine ⟨indegree',released,hfold,?_,hlen,?_,?_,?_,?_⟩
  · refine .snoc h.released (List.mem_map_of_mem hmem) hnew fun d hd => ?_
    rw [graph_next hn hmem] at hd
    exact hdeps d hd
  · intro i x hi
    rw [(hspec i x hi).1,h.degree i x hi,hedge hi,hcount x]
    omega
  · intro i hi
    rcases List.mem_append.1 hi with hi | hi
    · exact h.bounded i (List.mem_cons_of_mem _ hi)
    · exact hbound i ((List.mem_insertionSort _).1 hi)
  · refine List.nodup_append.2 ⟨hready,(List.perm_insertionSort _ _).nodup_iff.2 hnodup,?_⟩
    rintro i hi _ hi' rfl
    have hi' := (List.mem_insertionSort _).1 hi'
    have hx : nodes[i]?=some _ :=
      List.getElem?_eq_getElem (h.bounded i (List.mem_cons_of_mem _ hi))
    exact hwaits hx hi ((hrel hx).1 hi').1
  · intro i x hi
    rw [List.mem_append,List.mem_insertionSort,hrel hi]
    constructor
    · rintro (hm | ⟨hd,hall⟩)
      · have ⟨hx,hdx⟩ := (h.ready i x hi).1 (List.mem_cons_of_mem _ hm)
        refine ⟨?_,fun d hd => List.mem_append_left _ (hdx d hd)⟩
        rw [List.mem_append,List.mem_singleton,hsame hi]
        rintro (hx' | rfl)
        · exact hx hx'
        · exact hcurrent hm
      · refine ⟨?_,hall⟩
        rw [List.mem_append,List.mem_singleton]
        rintro (hx | he)
        · -- a released phase waits for nothing
          refine hnew (h.released.next_mem hx ?_)
          rwa [graph_next hn (List.mem_of_getElem? hi)]
        · have hi' := (hsame hi).1 he
          subst hi'
          cases hnode.symm.trans hi
          exact hnew (hdeps _ hd)
    · rintro ⟨hx,hall⟩
      rw [List.mem_append,List.mem_singleton,not_or,hsame hi] at hx
      by_cases hd : node.id ∈ x.dependsOn
      · exact .inr ⟨hd,hall⟩
      · refine .inl ?_
        have hm := (h.ready i x hi).2 ⟨hx.1,fun d hdx => ?_⟩
        · exact (List.mem_cons.1 hm).resolve_left hx.2
        · refine (List.mem_append.1 (hall d hdx)).resolve_right fun he => ?_
          exact hd (List.mem_singleton.1 he ▸ hdx)

/-- An order in which the phases were released that cannot go on. -/
theorem Sorting.kahn (hn : (nodes.map (·.id)).Nodup) {turns : Nat}
    (h : Sorting nodes order indegree ready) (ht : nodes.length ≤ turns+order.length) :
    (graph nodes).Released (kahn nodes turns ready indegree order) ∧
      (graph nodes).Exhausts (kahn nodes turns ready indegree order) := by
  induction turns generalizing order indegree ready with
  | zero =>
    refine ⟨h.released,?_⟩
    have hl : (graph nodes).nodes.length ≤ order.length := by
      rw [show (graph nodes).nodes=nodes.map (·.id) from rfl,List.length_map]
      omega
    exact fun id hid _ => (h.released.perm_of_length hl).mem_iff.2 hid
  | succ turns ih =>
    cases ready with
    | nil =>
      refine ⟨h.released,?_⟩
      intro id hid hall
      have ⟨node,hm,he⟩ := List.mem_map.1 hid
      have ⟨i,hi⟩ := List.getElem?_of_mem hm
      subst he
      rw [graph_next hn hm] at hall
      by_contra hnew
      exact nomatch (h.ready i node hi).2 ⟨hnew,hall⟩
    | cons current ready =>
      have ⟨indegree',released,hfold,hs⟩ := h.turn hn
      rw [PlanData.kahn]
      simp only [hfold]
      refine ih hs ?_
      rw [List.length_append,List.length_singleton]
      omega

theorem topologicalSort_spec (hn : (nodes.map (·.id)).Nodup) :
    (graph nodes).Released (topologicalSort nodes) ∧ (graph nodes).Exhausts (topologicalSort nodes) :=
  (Sorting.start nodes).kahn hn (Nat.le_add_right _ _)

end CompilerFabric.PlanData
