import CompilerFabric.Base.Trace

namespace CompilerFabric.Base.Graph

variable {α : Type} {g : Graph α} {a b : α} {pending out : List α} {start : α → Prop}

/-- What the walk keeps to: the nodes met are met once, everything met or to come is in reach of the
start, and what a node met names is met or to come. -/
structure Spreads (g : Graph α) (start : α → Prop) (pending out : List α) : Prop where
  nodup : out.Nodup
  reach : ∀ b ∈ out++pending,∃ a,start a ∧ g.Reach a b
  begun : ∀ a,start a → a ∈ out++pending
  behind : ∀ a ∈ out,∀ b ∈ g.next a,b ∈ out++pending

/-- The walk takes a node it has not met. -/
theorem Spreads.meet (h : g.Spreads start (a::pending) out) (ha : a ∉ out) :
    g.Spreads start (pending++g.next a) (out++[a]) := by
  have hmem (b : α) : b ∈ out++[a]++(pending++g.next a) ↔ b ∈ out++a::pending ∨ b ∈ g.next a := by
    simp only [List.mem_append,List.mem_cons,List.not_mem_nil,or_false]
    tauto
  refine ⟨?_,?_,?_,?_⟩
  · rw [List.nodup_append]
    exact ⟨h.nodup,List.nodup_singleton a,by
      rintro x hx y hy rfl
      exact ha (List.mem_singleton.1 hy ▸ hx)⟩
  · intro b hb
    rcases (hmem b).1 hb with hb | hb
    · exact h.reach b hb
    · have ⟨s,hs,hr⟩ := h.reach a (by simp)
      exact ⟨s,hs,hr.tail hb⟩
  · intro b hb
    exact (hmem b).2 (.inl (h.begun b hb))
  · intro x hx b hb
    rcases List.mem_append.1 hx with hx | hx
    · exact (hmem b).2 (.inl (h.behind x hx b hb))
    · rw [List.mem_singleton.1 hx] at hb
      exact (hmem b).2 (.inr hb)

/-- The walk passes over a node it has met. -/
theorem Spreads.pass (h : g.Spreads start (a::pending) out) (ha : a ∈ out) :
    g.Spreads start pending out := by
  have hmem (b : α) : b ∈ out++a::pending ↔ b ∈ out++pending := by
    simp only [List.mem_append,List.mem_cons]
    constructor
    · rintro (hb | rfl | hb)
      · exact .inl hb
      · exact .inl ha
      · exact .inr hb
    · exact fun hb => hb.imp_right .inr
  refine ⟨h.nodup,?_,?_,?_⟩
  · exact fun b hb => h.reach b ((hmem b).2 hb)
  · exact fun b hb => (hmem b).1 (h.begun b hb)
  · exact fun x hx b hb => (hmem b).1 (h.behind x hx b hb)

variable [DecidableEq α]

variable (g) in
/-- A breadth first walk that passes over what it has met: `out` are the nodes met, in their order,
and `pending` the ones to come. An unknown node is met and names nothing. -/
def closure (pending out : List α) : List α :=
  match pending with
  | [] => out
  | a::rest =>
      if a ∈ out then closure rest out
      else if a ∈ g.nodes then closure (rest++g.next a) (out++[a])
      else closure rest (out++[a])
termination_by ((g.nodes.filter (· ∉ out)).length,pending.length)
decreasing_by
  · simp [Prod.lex_iff]
  · next ho ha =>
    refine .left _ _ ?_
    rw [g.fresh_snoc,List.length_filter_lt_length_iff_exists]
    exact ⟨a,by simp [ho,ha],by simp⟩
  · next ho ha =>
    have hsame : g.nodes.filter (· ∉ out++[a])=g.nodes.filter (· ∉ out) := by
      refine List.filter_congr fun b hb => ?_
      have hne : b ≠ a := fun he => ha (he ▸ hb)
      simp [hne]
    rw [hsame]
    exact .right _ (Nat.lt_succ_self _)

/-- Where unknown nodes name nothing, the whole walk keeps to it. -/
theorem closure_spreads (hz : ∀ a,a ∉ g.nodes → g.next a=[]) (h : g.Spreads start pending out) :
    g.Spreads start [] (g.closure pending out) := by
  fun_induction closure g pending out with
  | case1 out => exact h
  | case2 out a rest ha ih => exact ih (h.pass ha)
  | case3 out a rest ha hn ih => exact ih (h.meet ha)
  | case4 out a rest ha hn ih =>
    refine ih ?_
    have hm := h.meet ha
    rwa [hz a hn,List.append_nil] at hm

theorem spreads_next (hz : ∀ a,a ∉ g.nodes → g.next a=[]) (a : α) :
    g.Spreads (· ∈ g.next a) [] (g.closure (g.next a) []) :=
  closure_spreads hz ⟨.nil,fun b hb => ⟨b,hb,.refl⟩,fun b hb => hb,by simp⟩

/-- What a walk from the nodes `a` names meets are the nodes in reach in one step or more. -/
theorem mem_closure (hz : ∀ a,a ∉ g.nodes → g.next a=[]) :
    b ∈ g.closure (g.next a) [] ↔ Relation.TransGen g.Names a b := by
  have h := spreads_next hz a
  constructor
  · intro hb
    have ⟨s,hs,hr⟩ := h.reach b (by simpa using hb)
    exact .head' hs hr
  · intro hb
    induction hb with
    | single hb => simpa using h.begun _ hb
    | tail _ hb ih => simpa using h.behind _ ih _ hb

theorem nodup_closure (hz : ∀ a,a ∉ g.nodes → g.next a=[]) : (g.closure (g.next a) []).Nodup :=
  (spreads_next hz a).nodup

end CompilerFabric.Base.Graph
