import CompilerFabric.Base.Trace
import Mathlib.Data.Finite.Sigma
import Mathlib.Data.List.Perm.Subperm
import Mathlib.Data.Set.Finite.List
import Mathlib.Order.WellFounded

namespace CompilerFabric.Base.Graph

variable {α : Type} {g : Graph α} {order : List α} {a b : α}

/-- Nodes in an order in which each comes after the ones it names. -/
inductive Released (g : Graph α) : List α → Prop
  | nil : Released g []
  | snoc {order : List α} {a : α} (h : Released g order) (hn : a ∈ g.nodes) (hnew : a ∉ order)
      (hnext : ∀ b ∈ g.next a,b ∈ order) : Released g (order++[a])

/-- No node is left that could come next. -/
def Exhausts (g : Graph α) (order : List α) : Prop :=
  ∀ a ∈ g.nodes,(∀ b ∈ g.next a,b ∈ order) → a ∈ order

namespace Released

theorem nodup (h : g.Released order) : order.Nodup := by
  induction h with
  | nil => exact List.nodup_nil
  | snoc _ _ hnew _ ih =>
    refine List.nodup_append.2 ⟨ih,List.nodup_singleton _,?_⟩
    rintro x hx y hy rfl
    exact hnew (List.mem_singleton.1 hy ▸ hx)

theorem subset (h : g.Released order) : order ⊆ g.nodes := by
  induction h with
  | nil => exact List.nil_subset _
  | snoc _ hn _ _ ih =>
    intro x hx
    rcases List.mem_append.1 hx with hx | hx
    · exact ih hx
    · exact List.mem_singleton.1 hx ▸ hn

theorem next_mem (h : g.Released order) (ha : a ∈ order) (hb : b ∈ g.next a) : b ∈ order := by
  induction h with
  | nil => cases ha
  | snoc _ _ _ hnext ih =>
    rcases List.mem_append.1 ha with ha | ha
    · exact List.mem_append_left _ (ih ha)
    · exact List.mem_append_left _ (hnext b (List.mem_singleton.1 ha ▸ hb))

theorem before [DecidableEq α] (h : g.Released order) (ha : a ∈ order) (hb : b ∈ g.next a) :
    order.idxOf b<order.idxOf a := by
  induction h with
  | nil => cases ha
  | @snoc order x h _ hnew hnext ih =>
    rcases List.mem_append.1 ha with ha | ha
    · rw [List.idxOf_append_of_mem (h.next_mem ha hb),List.idxOf_append_of_mem ha]
      exact ih ha
    · cases List.mem_singleton.1 ha
      have hmem := hnext b hb
      rw [List.idxOf_append_of_mem hmem,List.idxOf_append_of_notMem hnew]
      exact Nat.lt_add_right _ (List.idxOf_lt_length_of_mem hmem)

theorem reach_mem (h : g.Released order) (ha : a ∈ order) (hr : g.Reach a b) : b ∈ order := by
  induction hr with
  | refl => exact ha
  | tail _ hb ih => exact h.next_mem ih hb

theorem idxOf_reach [DecidableEq α] (h : g.Released order) (ha : a ∈ order)
    (hr : Relation.TransGen g.Names a b) : order.idxOf b<order.idxOf a := by
  induction hr with
  | single hb => exact h.before ha hb
  | tail hr hb ih =>
    have hm := h.reach_mem ha hr.to_reflTransGen
    exact Nat.lt_trans (h.before hm hb) ih

/-- What is released is on no cycle. -/
theorem acyclic (h : g.Released order) (ha : a ∈ order) : ¬Relation.TransGen g.Names a a := by
  classical
  exact fun hc => absurd (h.idxOf_reach ha hc) (Nat.lt_irrefl _)

theorem length_le (h : g.Released order) : order.length ≤ g.nodes.length :=
  (h.nodup.subperm h.subset).length_le

/-- An order as long as the nodes are many has them all. -/
theorem perm_of_length (h : g.Released order) (hl : g.nodes.length ≤ order.length) :
    order.Perm g.nodes :=
  (h.nodup.subperm h.subset).perm_of_length_le hl

/-- Where each node names known ones, an order that cannot go on has every node exactly if none is
on a cycle. -/
theorem covers_iff (h : g.Released order) (hx : g.Exhausts order)
    (hk : ∀ a ∈ g.nodes,∀ b ∈ g.next a,b ∈ g.nodes) :
    (∀ a ∈ g.nodes,a ∈ order) ↔ ∀ a ∈ g.nodes,¬Relation.TransGen g.Names a a := by
  constructor
  · exact fun hall a ha => h.acyclic (hall a ha)
  · intro hc
    have : Finite { a // a ∈ g.nodes } := g.nodes.finite_toSet
    let below (b a : { a // a ∈ g.nodes }) : Prop := Relation.TransGen g.Names a.1 b.1
    have : IsTrans _ below := ⟨fun _ _ _ h h' => h'.trans h⟩
    have : Std.Irrefl below := ⟨fun a => hc a.1 a.2⟩
    have hw : WellFounded below := Finite.wellFounded_of_trans_of_irrefl below
    suffices hall : ∀ a : { a // a ∈ g.nodes },a.1 ∈ order from fun a ha => hall ⟨a,ha⟩
    intro a
    induction a using hw.induction with
    | _ a ih => exact hx a.1 a.2 fun b hb => ih ⟨b,hk a.1 a.2 b hb⟩ (.single hb)

end Released

end CompilerFabric.Base.Graph
