import CompilerFabric.Core.Lineage

namespace CompilerFabric

open Base (Graph)

namespace ProvenanceLog

variable {r : ArtifactRegistry} {root : IntermediateArtifactId} {out : List (Ref .intermediate)}

theorem traceLineage_ok_iff : (∃ out,traceLineage r root=.ok out) ↔
    r.lineage.Complete root ∧ r.lineage.Acyclic root ∧ r.lineage.Unshared root := by
  rw [← Graph.trace_ok_iff]
  unfold traceLineage
  constructor
  · rintro ⟨out,h⟩
    split at h
    · cases h
    · cases h
    · next met hm => exact ⟨met,hm⟩
  · rintro ⟨met,hm⟩
    rw [hm]
    exact ⟨_,rfl⟩

/-- The list gives every artifact in reach of the root once, in the order of the identities. -/
structure Lists (r : ArtifactRegistry) (root : IntermediateArtifactId)
    (out : List (Ref .intermediate)) : Prop where
  mem : ∀ reference,reference ∈ out ↔ r.lineage.Reach root reference.id ∧
    ∃ artifact,r.find reference.id=some artifact ∧ artifact.generation=reference.generation
  reached : ∀ id,r.lineage.Reach root id → ∃ reference ∈ out,reference.id=id
  sorted : out.Pairwise fun a b => a.id.value<b.id.value

theorem traceLineage_lists (hr : r.Built) (h : traceLineage r root=.ok out) : Lists r root out := by
  have ⟨hk,_,_⟩ := traceLineage_ok_iff.1 ⟨out,h⟩
  unfold traceLineage at h
  split at h
  · cases h
  · cases h
  next met hm =>
  cases h
  have ⟨hn,hmem⟩ := Graph.trace_reach hm
  let refs := met.filterMap fun id =>
    (r.find id).map fun artifact => (⟨artifact.id,artifact.generation⟩ : Ref .intermediate)
  have hrefs (reference : Ref .intermediate) : reference ∈ refs ↔
      r.lineage.Reach root reference.id ∧
        ∃ artifact,r.find reference.id=some artifact ∧ artifact.generation=reference.generation := by
    simp only [refs,List.mem_filterMap,Option.map_eq_some_iff]
    constructor
    · rintro ⟨id,hid,artifact,ha,rfl⟩
      have he := hr.id_eq ha
      dsimp only
      rw [he]
      exact ⟨(hmem id).1 hid,artifact,ha,rfl⟩
    · rintro ⟨hreach,artifact,ha,hg⟩
      refine ⟨reference.id,(hmem _).2 hreach,artifact,ha,?_⟩
      rw [hr.id_eq ha,hg]
  have hids : refs.map (·.id)=met := by
    rw [List.map_filterMap]
    refine (List.filterMap_congr ?_).trans List.filterMap_some
    intro id hid
    have ⟨artifact,ha⟩ := Option.isSome_iff_exists.1
      (ArtifactRegistry.mem_lineage_nodes.1 (hk id ((hmem id).1 hid)))
    simp [ha,hr.id_eq ha]
  have hsort : ∀ reference,reference ∈ refs.insertionSort (fun a b => a.id.value ≤ b.id.value) ↔
      reference ∈ refs := fun _ => List.mem_insertionSort _
  refine ⟨fun reference => (hsort reference).trans (hrefs reference),?_,?_⟩
  · intro id hid
    have hm := (hmem id).2 hid
    rw [← hids] at hm
    have ⟨reference,href,he⟩ := List.mem_map.1 hm
    exact ⟨reference,(hsort reference).2 href,he⟩
  · have hle := List.pairwise_insertionSort
      (fun a b : Ref .intermediate => a.id.value ≤ b.id.value) refs
    have hne : (refs.insertionSort fun a b => a.id.value ≤ b.id.value).Pairwise
        fun a b => a.id ≠ b.id := by
      rw [← List.pairwise_map (f := fun a : Ref .intermediate => a.id) (R := (· ≠ ·))]
      rw [← hids] at hn
      exact ((List.perm_insertionSort _ refs).map _).nodup_iff.2 hn
    refine hle.imp₂ ?_ hne
    intro a b hab hne
    exact UInt64.lt_of_le_of_ne hab fun he => hne (StrongId.ext he)

/-- `trace_lineage` as its contract has it. -/
def Traces (r : ArtifactRegistry) (root : IntermediateArtifactId) : Prop :=
  ((∃ out,traceLineage r root=.ok out) ↔ r.lineage.Complete root ∧ r.lineage.Acyclic root) ∧
    ∀ out,traceLineage r root=.ok out → Lists r root out

/-- A lineage is traced exactly unless it is sound and an artifact in it is used twice. -/
theorem traces_iff (hr : r.Built) (root : IntermediateArtifactId) : Traces r root ↔
    (r.lineage.Complete root → r.lineage.Acyclic root → r.lineage.Unshared root) := by
  rw [Traces,traceLineage_ok_iff]
  constructor
  · rintro ⟨h,_⟩ hk hc
    exact (h.2 ⟨hk,hc⟩).2.2
  · intro h
    refine ⟨⟨fun ⟨hk,hc,_⟩ => ⟨hk,hc⟩,fun ⟨hk,hc⟩ => ⟨hk,hc,h hk hc⟩⟩,?_⟩
    intro out ho
    exact traceLineage_lists hr ho

end ProvenanceLog

namespace Sample

def registering (r : ArtifactRegistry) (ids : List UInt64) : ArtifactRegistry :=
  match r.registerArtifact { lineageInputs := ids.map fun id => ⟨⟨id⟩,.initial⟩ } with
  | .ok (_,r) => r
  | .error _ => r

/-- Artifacts registered one after the other, each made from the ones listed for it. -/
def madeFrom (inputs : List (List UInt64)) : ArtifactRegistry := inputs.foldl registering {}

theorem madeFrom_built (inputs : List (List UInt64)) : (madeFrom inputs).Built := by
  suffices h : ∀ r : ArtifactRegistry,r.Built → (inputs.foldl registering r).Built from h {} .empty
  induction inputs with
  | nil => exact fun _ h => h
  | cons ids inputs ih =>
    intro r h
    apply ih
    unfold registering
    split
    · next hr => exact .registered h hr
    · exact h

/-- An image linked from two objects of one source. -/
def diamond : ArtifactRegistry := madeFrom [[],[1],[1],[2,3]]

/-- An image linked from two objects of two sources. -/
def fork : ArtifactRegistry := madeFrom [[],[],[1],[2],[3,4]]

end Sample

open Sample

namespace ProvenanceLog

theorem traces_fork : Traces fork ⟨5⟩ := by
  refine (traces_iff (madeFrom_built _) ⟨5⟩).2 ?_
  intro hk _
  have hn : ∀ a ∈ fork.lineage.nodes,(fork.lineage.next a).Nodup ∧ ∀ b ∈ fork.lineage.nodes,
      ∀ c ∈ fork.lineage.next a,c ∈ fork.lineage.next b → a=b := by decide +kernel
  exact ⟨fun a ha => (hn a (hk a ha)).1,
    fun a b c ha hb hca hcb => (hn a (hk a ha)).2 b (hk b hb) c hca hcb⟩

theorem not_traces_diamond : ¬Traces diamond ⟨4⟩ := by
  rintro ⟨hok,_⟩
  have hdown : ∀ a ∈ diamond.lineage.nodes,∀ b ∈ diamond.lineage.next a,
      b ∈ diamond.lineage.nodes ∧ b.value.toNat<a.value.toNat := by decide +kernel
  have hk : diamond.lineage.Complete ⟨4⟩ :=
    Graph.complete_of_closed (by decide +kernel) fun a ha b hb => (hdown a ha b hb).1
  have hc : diamond.lineage.Acyclic ⟨4⟩ :=
    Graph.acyclic_of_rank (·.value.toNat) fun a b ha hab => (hdown a (hk a ha) b hab).2
  have ⟨_,_,hu⟩ := traceLineage_ok_iff.1 (hok.2 ⟨hk,hc⟩)
  have hstep : ∀ a ∈ [⟨2⟩,⟨3⟩],a ∈ diamond.lineage.next ⟨4⟩ ∧ ⟨1⟩ ∈ diamond.lineage.next a := by
    decide +kernel
  have h2 := hstep ⟨2⟩ (by decide)
  have h3 := hstep ⟨3⟩ (by decide)
  have he := hu.one ⟨2⟩ ⟨3⟩ ⟨1⟩ (.single h2.1) (.single h3.1) h2.2 h3.2
  revert he
  decide

end ProvenanceLog

end CompilerFabric
