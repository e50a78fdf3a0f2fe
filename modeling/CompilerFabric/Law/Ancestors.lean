import CompilerFabric.Base.Closure
import CompilerFabric.Law.Plan

namespace CompilerFabric.PhasePlan

open Base

variable (plan : PhasePlan) (id : CompilerPhaseId)

def dependencies : List CompilerPhaseId := ((plan.find id).map (·.dependsOn)).getD []

/-- The `while (!pending.empty())` loop. What it has met is `visited` and `out` at once; a phase that
is not in the plan has no dependencies. -/
def transitiveDependencies : List CompilerPhaseId :=
  ((PlanData.graph plan.nodes).closure (plan.dependencies id) []).insertionSort
    fun a b => a.value ≤ b.value

def mandatoryAncestors : List CompilerPhaseId :=
  (plan.transitiveDependencies id).filter fun candidate => (plan.find candidate).any (·.mandatory)

section Plan

variable {plan id} {nodes : List PhaseNode} {a b : CompilerPhaseId}

theorem find_some_iff (hn : (plan.nodes.map (·.id)).Nodup) {node : PhaseNode} :
    plan.find id=some node ↔ node ∈ plan.nodes ∧ node.id=id := by
  constructor
  · intro h
    exact ⟨List.mem_of_find?_eq_some h,by simpa using List.find?_some h⟩
  · rintro ⟨hm,rfl⟩
    exact PlanData.find_of_mem hn hm

theorem mem_dependencies (hn : (plan.nodes.map (·.id)).Nodup) :
    b ∈ plan.dependencies a ↔ PlanData.Needs plan.nodes a b := by
  unfold dependencies
  cases hf : plan.find a with
  | none =>
    simp only [Option.map_none,Option.getD_none,List.not_mem_nil,false_iff]
    rintro ⟨node,hm,rfl,_⟩
    rw [(find_some_iff hn).2 ⟨hm,rfl⟩] at hf
    cases hf
  | some node =>
    have ⟨hm,hid⟩ := (find_some_iff hn).1 hf
    constructor
    · exact fun hb => ⟨node,hm,hid,hb⟩
    · rintro ⟨other,ho,hoid,hb⟩
      cases hf.symm.trans ((find_some_iff hn).2 ⟨ho,hoid⟩)
      exact hb

theorem names_eq (hn : (plan.nodes.map (·.id)).Nodup) :
    (PlanData.graph plan.nodes).Names=PlanData.Needs plan.nodes := by
  funext a b
  exact propext (mem_dependencies hn)

/-- A phase that is not in the plan has no dependencies. -/
theorem next_of_unknown (h : a ∉ (PlanData.graph plan.nodes).nodes) :
    (PlanData.graph plan.nodes).next a=[] := by
  have hf : plan.nodes.find? (·.id=a)=none := by
    rw [List.find?_eq_none]
    intro node hm hid
    exact h (List.mem_map.2 ⟨node,hm,by simpa using hid⟩)
  show ((plan.nodes.find? (·.id=a)).map (·.dependsOn)).getD []=[]
  rw [hf]
  rfl

theorem mem_transitiveDependencies (hn : (plan.nodes.map (·.id)).Nodup) :
    b ∈ plan.transitiveDependencies id ↔ Relation.TransGen (PlanData.Needs plan.nodes) id b := by
  unfold transitiveDependencies
  rw [List.mem_insertionSort,← names_eq hn]
  exact Graph.mem_closure fun _ => next_of_unknown

variable (plan id) in
theorem transitiveDependencies_nodup : (plan.transitiveDependencies id).Nodup :=
  ((List.perm_insertionSort _ _).nodup_iff).2 (Graph.nodup_closure fun _ => next_of_unknown)

theorem transitiveDependencies_sorted :
    (plan.transitiveDependencies id).Pairwise (·.value<·.value) := by
  have : IsTrans CompilerPhaseId fun a b => a.value ≤ b.value := ⟨fun _ _ _ => UInt64.le_trans⟩
  have : Std.Total fun a b : CompilerPhaseId => a.value ≤ b.value :=
    ⟨fun a b => UInt64.le_total a.value b.value⟩
  have hs := List.pairwise_insertionSort (fun a b : CompilerPhaseId => a.value ≤ b.value)
    ((PlanData.graph plan.nodes).closure (plan.dependencies id) [])
  refine (hs.and (plan.transitiveDependencies_nodup id)).imp ?_
  rintro a b ⟨hle,hne⟩
  exact UInt64.lt_of_le_of_ne hle fun he => hne (StrongId.ext he)

/-- Where what is committed has its dependencies committed, the direct ones tell of all. -/
theorem isReady_iff (hn : (plan.nodes.map (·.id)).Nodup) {committed : List CompilerPhaseId}
    (hc : ∀ a ∈ committed,∀ b,PlanData.Needs plan.nodes a b → b ∈ committed)
    (hid : id ∈ plan.nodes.map (·.id)) :
    plan.isReady id committed ↔ ∀ b ∈ plan.transitiveDependencies id,b ∈ committed := by
  have ⟨node,hm,hnode⟩ := List.mem_map.1 hid
  have hready : plan.isReady id committed ↔ ∀ b,PlanData.Needs plan.nodes id b → b ∈ committed := by
    have hf := (find_some_iff hn).2 ⟨hm,hnode⟩
    have hd (b : CompilerPhaseId) : b ∈ node.dependsOn ↔ PlanData.Needs plan.nodes id b := by
      rw [← mem_dependencies hn,dependencies,hf]
      rfl
    simp only [isReady,hf,List.all_eq_true,decide_eq_true_eq,hd]
  rw [hready]
  constructor
  · intro h b hb
    rw [mem_transitiveDependencies hn] at hb
    induction hb with
    | single hb => exact h _ hb
    | tail _ hb ih => exact hc _ ih _ hb
  · exact fun h b hb => h b ((mem_transitiveDependencies hn).2 (.single hb))

/-- Ancestor sets. -/
theorem ancestors_exact (h : build nodes=.ok plan) (id : CompilerPhaseId)
    (hid : id ∈ nodes.map (·.id)) :
    (∀ b,b ∈ plan.transitiveDependencies id ↔ Relation.TransGen (PlanData.Needs nodes) id b) ∧
    (plan.transitiveDependencies id).Nodup ∧
    (plan.transitiveDependencies id).Pairwise (·.value<·.value) ∧
    (∀ b,b ∈ plan.mandatoryAncestors id ↔ b ∈ plan.transitiveDependencies id ∧
      ∃ node ∈ nodes,node.id=b ∧ node.mandatory) ∧
    (plan.mandatoryAncestors id).Sublist (plan.transitiveDependencies id) ∧
    ∀ committed : List CompilerPhaseId,
      (∀ a ∈ committed,∀ b,PlanData.Needs nodes a b → b ∈ committed) →
      (plan.isReady id committed ↔ ∀ b ∈ plan.transitiveDependencies id,b ∈ committed) := by
  have ⟨hnodes,hsound⟩ := PlanData.sound_of_build (build_ok.1 h)
  subst hnodes
  have hn := hsound.distinct
  refine ⟨fun b => mem_transitiveDependencies hn,plan.transitiveDependencies_nodup id,
    transitiveDependencies_sorted,fun b => ?_,List.filter_sublist,fun committed hc => isReady_iff hn hc hid⟩
  unfold mandatoryAncestors
  rw [List.mem_filter,Option.any_eq_true]
  simp only [find_some_iff hn,and_assoc]

theorem ancestors_exact_unitPhases : ∃ plan,build Sample.unitPhases=.ok plan ∧
    (plan.transitiveDependencies ⟨3⟩).Nodup ∧ ∀ b,b ∈ plan.transitiveDependencies ⟨3⟩ ↔
      Relation.TransGen (PlanData.Needs Sample.unitPhases) ⟨3⟩ b := by
  have ⟨plan,h⟩ := Sample.unitPhases_build
  have hexact := ancestors_exact h ⟨3⟩ (by decide)
  exact ⟨plan,h,hexact.2.1,hexact.1⟩

end Plan

end CompilerFabric.PhasePlan
