import Mathlib.Algebra.Order.Ring.Nat
import Mathlib.Algebra.Order.BigOperators.Group.List
import Mathlib.Algebra.Order.Group.Nat
import Mathlib.Data.List.Nodup
import Mathlib.Data.List.Pairwise
import Mathlib.Logic.Relation
import Mathlib.Tactic.Common

namespace CompilerFabric.Base

/-- The known nodes of a graph, and the nodes each of them names. -/
structure Graph (α : Type) where
  nodes : List α
  next : α → List α

/-- Why a walk over a graph stops. -/
inductive Stop (α : Type)
  | twice (a : α)
  | missing (a : α)
deriving DecidableEq

namespace Graph

variable {α : Type} (g : Graph α) (root : α)

def Names (a b : α) : Prop := b ∈ g.next a

abbrev Reach : α → α → Prop := Relation.ReflTransGen g.Names

/-- Every node in reach is known. -/
def Complete : Prop := ∀ a,g.Reach root a → a ∈ g.nodes

def Acyclic : Prop := ∀ a,g.Reach root a → ¬Relation.TransGen g.Names a a

/-- No node in reach is named twice, by one node or by two. -/
structure Unshared : Prop where
  once : ∀ a,g.Reach root a → (g.next a).Nodup
  one : ∀ a b c,g.Reach root a → g.Reach root b → c ∈ g.next a → c ∈ g.next b → a=b

variable {g root} {a : α} {pending out res : List α}

/-- Where nothing is shared, nodes in reach name every node once, and the root never. -/
theorem Unshared.names_nodup (h : g.Unshared root) (hc : g.Acyclic root) (hn : out.Nodup)
    (hr : ∀ a ∈ out,g.Reach root a) : (root::out.flatMap g.next).Nodup := by
  rw [List.nodup_cons]
  refine ⟨?_,?_⟩
  · intro hm
    have ⟨a,ha,hroot⟩ := List.mem_flatMap.1 hm
    exact hc root .refl (.tail' (hr a ha) hroot)
  · rw [List.nodup_flatMap]
    refine ⟨fun a ha => h.once a (hr a ha),hn.imp_of_mem ?_⟩
    intro a b ha hb hne c hca hcb
    exact hne (h.one a b c (hr a ha) (hr b hb) hca hcb)

theorem complete_of_closed (hr : root ∈ g.nodes) (h : ∀ a ∈ g.nodes,∀ b ∈ g.next a,b ∈ g.nodes) :
    g.Complete root := by
  intro a ha
  induction ha with
  | refl => exact hr
  | tail _ hab ih => exact h _ ih _ hab

/-- Nodes that name lower ones only are on no cycle. -/
theorem acyclic_of_rank (rank : α → Nat)
    (h : ∀ a b,g.Reach root a → b ∈ g.next a → rank b<rank a) : g.Acyclic root := by
  have hlt {a b : α} (ha : g.Reach root a) (hab : Relation.TransGen g.Names a b) :
      rank b<rank a := by
    induction hab with
    | single hab => exact h _ _ ha hab
    | tail hab hbc ih => exact Nat.lt_trans (h _ _ (ha.trans hab.to_reflTransGen) hbc) ih
  intro a ha hcycle
  exact Nat.lt_irrefl _ (hlt ha hcycle)

/-- Among nodes that name each other downwards, the root reaches all of them and nothing else
exactly where each of the others is named by one of them. -/
theorem reach_iff_named {L : List α} (rank : α → Nat) (hroot : root ∈ L)
    (hdown : ∀ a ∈ L,∀ b ∈ g.next a,b ∈ L ∧ rank b<rank a) :
    (∀ a,a ∈ L ↔ g.Reach root a) ↔ ∀ a ∈ L,a ≠ root → ∃ b ∈ L,a ∈ g.next b := by
  constructor
  · intro h a ha hne
    rcases ((h a).1 ha).cases_tail with he | ⟨b,hb,hab⟩
    · exact absurd he hne
    · exact ⟨b,(h b).2 hb,hab⟩
  · intro h a
    constructor
    · -- the nodes that name `a` rank higher, and no rank is above the sum of all
      intro ha
      have hm : ∀ a ∈ L,rank a ≤ (L.map rank).sum := fun a ha =>
        List.le_sum_of_mem (List.mem_map_of_mem ha)
      generalize (L.map rank).sum=m at hm
      induction hk : m-rank a using Nat.strongRecOn generalizing a with
      | ind k ih =>
        by_cases he : a=root
        · exact he ▸ .refl
        · have ⟨b,hb,hab⟩ := h a ha he
          have hlt := (hdown b hb a hab).2
          have hle := hm b hb
          exact (ih (m-rank b) (by omega) b hb rfl).tail hab
    · intro hr
      induction hr with
      | refl => exact hroot
      | tail _ hab ih => exact (hdown _ ih _ hab).1

variable [DecidableEq α]

theorem fresh_snoc (g : Graph α) (out : List α) (a : α) :
    g.nodes.filter (· ∉ out++[a])=(g.nodes.filter (· ∉ out)).filter (· ≠ a) := by
  rw [List.filter_filter]
  congr 1
  funext b
  simp [and_comm]

variable (g) in
/-- A breadth first walk that takes a node it meets again for a cycle: `out` are the nodes met, in
their order, and `pending` the ones to come. -/
def trace (pending out : List α) : Except (Stop α) (List α) :=
  match pending with
  | [] => .ok out
  | a::rest =>
      if a ∈ out then .error (.twice a)
      else if a ∈ g.nodes then trace (rest++g.next a) (out++[a])
      else .error (.missing a)
termination_by (g.nodes.filter (· ∉ out)).length
decreasing_by
  next ho ha =>
  rw [g.fresh_snoc,List.length_filter_lt_length_iff_exists]
  exact ⟨a,by simp [ho,ha],by simp⟩

/-- What the walk has met and what it has still to meet: the root, and whatever the nodes it has
met name. A node comes behind the nodes that name it. -/
structure Met (g : Graph α) (root : α) (pending out : List α) : Prop where
  named : (out++pending).Perm (root::out.flatMap g.next)
  reach : ∀ a ∈ out++pending,g.Reach root a
  known : ∀ a ∈ out,a ∈ g.nodes
  nodup : out.Nodup
  behind : ∀ a ∈ out,∀ b ∈ g.next a,b ∈ pending ∨ out.idxOf a<out.idxOf b

theorem Met.start : Met g root [root] [] where
  named := .refl _
  reach := by simp [Relation.ReflTransGen.refl]
  known := by simp
  nodup := .nil
  behind := by simp

theorem Met.turn {rest : List α} (h : Met g root (a::rest) out) (ho : a ∉ out) (ha : a ∈ g.nodes) :
    Met g root (rest++g.next a) (out++[a]) where
  named := by
    have hn := h.named.append_right (g.next a)
    simpa using hn
  reach := by
    intro b hb
    have hreach := h.reach a (by simp)
    simp only [List.mem_append,List.mem_singleton] at hb
    rcases hb with (hb | rfl) | hb | hb
    · exact h.reach b (by simp [hb])
    · exact hreach
    · exact h.reach b (by simp [hb])
    · exact hreach.tail hb
  known := by
    intro b hb
    rcases List.mem_append.1 hb with hb | hb
    · exact h.known b hb
    · exact List.mem_singleton.1 hb ▸ ha
  nodup := by
    rw [List.nodup_append]
    refine ⟨h.nodup,List.nodup_singleton a,?_⟩
    rintro b hb _ hc rfl
    exact ho (List.mem_singleton.1 hc ▸ hb)
  behind := by
    intro b hb c hc
    rcases List.mem_append.1 hb with hbo | hba
    · rw [List.idxOf_append_of_mem hbo]
      have hlt := List.idxOf_lt_length_of_mem hbo
      by_cases hco : c ∈ out
      · rw [List.idxOf_append_of_mem hco]
        rcases h.behind b hbo c hc with hp | hi
        · rcases List.mem_cons.1 hp with rfl | hp
          · exact absurd hco ho
          · exact .inl (List.mem_append_left _ hp)
        · exact .inr hi
      · right
        rw [List.idxOf_append_of_notMem hco]
        omega
    · rw [List.mem_singleton.1 hba] at hc
      exact .inl (List.mem_append_right _ hc)

/-- A walk that ends has met everything it had to. -/
theorem Met.trace_ok (h : Met g root pending out) (ht : g.trace pending out=.ok res) :
    Met g root [] res := by
  fun_induction trace g pending out with
  | case1 out =>
    cases ht
    exact h
  | case2 => cases ht
  | case3 out a rest ho ha ih => exact ih (h.turn ho ha) ht
  | case4 => cases ht

/-- Where nothing is shared, the walk ends. -/
theorem Met.exists_ok (h : Met g root pending out) (hk : g.Complete root) (hc : g.Acyclic root)
    (hu : g.Unshared root) : ∃ res,g.trace pending out=.ok res := by
  fun_induction trace g pending out with
  | case1 out => exact ⟨out,rfl⟩
  | case2 out a rest ho =>
    have hn := hu.names_nodup hc h.nodup fun b hb => h.reach b (List.mem_append_left _ hb)
    have hn := h.named.nodup_iff.2 hn
    rw [List.nodup_append] at hn
    exact absurd rfl (hn.2.2 a ho a List.mem_cons_self)
  | case3 out a rest ho ha ih => exact ih (h.turn ho ha)
  | case4 out a rest ho ha => exact absurd (hk a (h.reach a (by simp))) ha

section Ended

variable (h : Met g root [] out)
include h

theorem Met.mem_iff : a ∈ out ↔ g.Reach root a := by
  have hm (b : α) : b ∈ out ↔ b=root ∨ ∃ a ∈ out,b ∈ g.next a := by
    have := h.named.mem_iff (a := b)
    simpa using this
  constructor
  · intro ha
    exact h.reach a (by simpa using ha)
  · intro hr
    induction hr with
    | refl => exact (hm root).2 (.inl rfl)
    | @tail b c _ hbc ih => exact (hm c).2 (.inr ⟨b,ih,hbc⟩)

theorem Met.complete : g.Complete root := fun a ha => h.known a (h.mem_iff.2 ha)

theorem Met.acyclic : g.Acyclic root := by
  refine acyclic_of_rank (fun a => out.length-out.idxOf a) ?_
  intro a b ha hab
  have hi := (h.behind a (h.mem_iff.2 ha) b hab).resolve_left (by simp)
  have hb := List.idxOf_lt_length_of_mem (h.mem_iff.2 (ha.tail hab))
  omega

theorem Met.unshared : g.Unshared root := by
  have hn := h.named.nodup_iff.1 (by simpa using h.nodup)
  rw [List.nodup_cons,List.nodup_flatMap] at hn
  refine ⟨fun a ha => hn.2.1 a (h.mem_iff.2 ha),?_⟩
  intro a b c ha hb hca hcb
  by_contra hne
  have hsymm : Std.Symm (Function.onFun List.Disjoint g.next) := ⟨fun _ _ hd _ hb ha => hd ha hb⟩
  exact hn.2.2.forall (h.mem_iff.2 ha) (h.mem_iff.2 hb) hne hca hcb

end Ended

/-- The walk from a node ends exactly where everything in reach is known, without a cycle and
without a node that is named twice. -/
theorem trace_ok_iff : (∃ res,g.trace [root] []=.ok res) ↔
    g.Complete root ∧ g.Acyclic root ∧ g.Unshared root := by
  constructor
  · rintro ⟨res,ht⟩
    have h := Met.start.trace_ok ht
    exact ⟨h.complete,h.acyclic,h.unshared⟩
  · rintro ⟨hk,hc,hu⟩
    exact Met.start.exists_ok hk hc hu

/-- What it gives then are the nodes in reach, each once. -/
theorem trace_reach (h : g.trace [root] []=.ok res) :
    res.Nodup ∧ ∀ a,a ∈ res ↔ g.Reach root a :=
  have h := Met.start.trace_ok h
  ⟨h.nodup,fun _ => h.mem_iff⟩

end Graph

end CompilerFabric.Base
