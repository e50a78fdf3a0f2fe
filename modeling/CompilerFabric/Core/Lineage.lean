import CompilerFabric.Base.Trace
import CompilerFabric.Core.Artifact

namespace CompilerFabric

open Base (Graph)

namespace ArtifactRegistry

/-- What the registered artifacts say they were made from. -/
def lineage (r : ArtifactRegistry) : Graph IntermediateArtifactId where
  nodes := r.entries.keys.map (⟨·⟩)
  next := fun id => ((r.find id).map fun artifact => artifact.lineageInputs.map (·.id)).getD []

end ArtifactRegistry

namespace ProvenanceLog

def traceLineage (artifacts : ArtifactRegistry) (root : IntermediateArtifactId) :
    Result (List (Ref .intermediate)) :=
  match artifacts.lineage.trace [root] [] with
  | .error (.twice current) =>
      .error ⟨.invalidArgument,ascii "artifact lineage contains a cycle at "++current.toText⟩
  | .error (.missing current) =>
      .error ⟨.notFound,
        ascii "artifact lineage references an unregistered artifact: "++current.toText⟩
  | .ok met =>
      .ok ((met.filterMap fun current =>
        (artifacts.find current).map fun artifact => ⟨artifact.id,artifact.generation⟩).insertionSort
          fun a b => a.id.value ≤ b.id.value)

def lineageIsAuthoritative (artifacts : ArtifactRegistry) (root : IntermediateArtifactId) : Bool :=
  match traceLineage artifacts root with
  | .error _ => false
  | .ok lineage => lineage.all fun reference =>
      (artifacts.find reference.id).any fun artifact =>
        artifact.authority=.authoritative && artifact.state.isConsumable

end ProvenanceLog

namespace Table

variable {α : Type} {m : Table α} {k i : UInt64} {v a : α}

theorem of_insert (h : (m.insert k v)[i]?=some a) : k=i ∧ v=a ∨ m[i]?=some a := by
  rw [Std.ExtTreeMap.getElem?_insert] at h
  split at h
  · next hk => exact .inl ⟨Std.LawfulEqCmp.eq_of_compare hk,Option.some.inj h⟩
  · exact .inr h

theorem of_insertIfNew (h : (m.insertIfNew k v)[i]?=some a) : k=i ∧ v=a ∨ m[i]?=some a := by
  rw [Std.ExtTreeMap.getElem?_insertIfNew] at h
  split at h
  · next hk => exact .inl ⟨Std.LawfulEqCmp.eq_of_compare hk.1,Option.some.inj h⟩
  · exact .inr h

end Table

namespace ArtifactRegistry

/-- A registry as its operations build it; what is written through to a registered artifact leaves
its identity alone. -/
inductive Built : ArtifactRegistry → Prop
  | empty : Built {}
  | registered {r r' : ArtifactRegistry} {artifact : IntermediateArtifact}
      {reference : Ref .intermediate} (h : Built r)
      (hr : r.registerArtifact artifact=.ok (reference,r')) : Built r'
  | registeredAs {r r' : ArtifactRegistry} {id : IntermediateArtifactId}
      {artifact : IntermediateArtifact} {reference : Ref .intermediate} (h : Built r)
      (hr : r.registerArtifactAs id artifact=.ok (reference,r')) : Built r'
  | modified {r : ArtifactRegistry} {f : IntermediateArtifact → IntermediateArtifact} (h : Built r)
      (id : IntermediateArtifactId) (hf : ∀ a,(f a).id=a.id) : Built (r.modify id f)

variable {r : ArtifactRegistry} {id root : IntermediateArtifactId} {a : IntermediateArtifact}

theorem Built.id_eq (h : Built r) (ha : r.find id=some a) : a.id=id := by
  induction h generalizing a with
  | empty => simp [find] at ha
  | @registered r r' artifact reference _ hr ih =>
    unfold registerArtifact at hr
    split at hr
    · cases hr
    · cases hr
      rcases Table.of_insertIfNew ha with ⟨hk,rfl⟩ | ha
      · exact StrongId.ext hk
      · exact ih ha
  | @registeredAs r r' id' artifact reference _ hr ih =>
    unfold registerArtifactAs at hr
    split at hr
    · cases hr
    · cases hr
      rcases Table.of_insert ha with ⟨hk,rfl⟩ | ha
      · exact StrongId.ext hk
      · exact ih ha
  | @modified r f _ id' hf ih =>
    rw [find,modify,Std.ExtTreeMap.getElem?_modify] at ha
    split at ha
    · next hk =>
      have hk := Std.LawfulEqCmp.eq_of_compare hk
      have ⟨b,hb,he⟩ := Option.map_eq_some_iff.1 ha
      rw [← he,hf]
      exact ih (by rw [find,← hk,hb])
    · exact ih ha

theorem mem_lineage_nodes : id ∈ r.lineage.nodes ↔ (r.find id).isSome := by
  rw [lineage,List.mem_map,find,← Std.ExtTreeMap.mem_iff_isSome_getElem?]
  constructor
  · rintro ⟨k,hk,rfl⟩
    exact Std.ExtTreeMap.mem_keys.1 hk
  · intro h
    exact ⟨id.value,Std.ExtTreeMap.mem_keys.2 h,rfl⟩

end ArtifactRegistry

end CompilerFabric
