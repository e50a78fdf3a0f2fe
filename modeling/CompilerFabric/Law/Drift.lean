import CompilerFabric.Core.Lineage
import CompilerFabric.Core.Toolchain

namespace CompilerFabric

namespace ToolchainRegistry

/-- A registry as its operations build it. -/
inductive Built : ToolchainRegistry → Prop
  | empty : Built {}
  | registered {r r' : ToolchainRegistry} {identity : ToolchainIdentity}
      {reference : Ref .toolchain} (h : Built r)
      (hr : r.registerToolchain identity=.ok (reference,r')) : Built r'
  | registeredAs {r r' : ToolchainRegistry} {id : ToolchainId} {identity : ToolchainIdentity}
      {reference : Ref .toolchain} (h : Built r)
      (hr : r.registerToolchainAs id identity=.ok (reference,r')) : Built r'
  | refreshed {r r' : ToolchainRegistry} {observed : ToolchainIdentity}
      {mutation : ToolchainMutation} (h : Built r)
      (hr : r.refresh observed=.ok (mutation,r')) : Built r'
  | invalidated {r r' : ToolchainRegistry} {id : ToolchainId} {reason : Bytes}
      {mutation : ToolchainMutation} (h : Built r)
      (hr : r.invalidate id reason=.ok (mutation,r')) : Built r'

variable {r : ToolchainRegistry} {entry : ToolchainEntry}

theorem next_present {tag : IdTag} (a : IdAllocator tag) : a.next.1.present=true := by
  unfold IdAllocator.next StrongId.present
  split_ifs with h <;> simp [h]

/-- An entry is filed under its identity, which is present. -/
theorem Built.filed (h : Built r) {k : UInt64} (hk : r.entries[k]?=some entry) :
    entry.identity.id.value=k ∧ entry.identity.id.present=true := by
  induction h generalizing k entry with
  | empty => simp at hk
  | @registered r r' identity reference _ hr ih =>
    unfold registerToolchain refuse at hr
    split_ifs at hr
    cases hr
    rcases Table.of_insertIfNew hk with ⟨hid,rfl⟩ | hk
    · exact ⟨hid,next_present _⟩
    · exact ih hk
  | @registeredAs r r' id identity reference _ hr ih =>
    unfold registerToolchainAs refuse at hr
    split_ifs at hr with hid
    all_goals
      cases hr
      rcases Table.of_insert hk with ⟨hkey,rfl⟩ | hk
      · exact ⟨hkey,by simpa using hid⟩
      · exact ih hk
  | @refreshed r r' observed mutation _ hr ih =>
    unfold refresh at hr
    cases hget : r.entries[observed.id.value]? with
    | none => simp [hget] at hr
    | some e =>
      rw [hget] at hr
      dsimp only at hr
      split_ifs at hr
      · cases hr
        exact ih hk
      · cases hr
        rcases Table.of_insert hk with ⟨hkey,rfl⟩ | hk
        · have hold := ih hget
          have hid : e.identity.id=observed.id := StrongId.ext hold.1
          exact ⟨hkey,hid ▸ hold.2⟩
        · exact ih hk
  | @invalidated r r' id reason mutation _ hr ih =>
    unfold invalidate at hr
    cases hget : r.entries[id.value]? with
    | none => simp [hget] at hr
    | some e =>
      rw [hget] at hr
      cases hr
      rcases Table.of_insert hk with ⟨hkey,rfl⟩ | hk
      · exact ⟨(ih hget).1.trans hkey,(ih hget).2⟩
      · exact ih hk

end ToolchainRegistry

namespace ToolchainIdentity

/-- Variables count by upper-cased name and value, in any order. -/
def SameVariables (vs ws : List EnvironmentVariable) : Prop :=
  let fold (v : EnvironmentVariable) := (toUpperAscii v.name,v.value)
  (vs.map fold).Perm (ws.map fold)

/-- Components in any order, one for one with the same name and the same binary. -/
def SameComponents (cs ds : List ComponentIdentity) : Prop :=
  ∃ es,es.Perm ds ∧ List.Forall₂ (fun c e => c.name=e.name ∧ c.file.sameBinaryAs e.file) cs es

/-- Two toolchains that differ in nothing that an authoritative output depends on. -/
structure Alike (previous observed : ToolchainIdentity) : Prop where
  components : SameComponents previous.components observed.components
  version : previous.version=observed.version
  toolkitRoot : canonicalPathKey previous.toolkitRoot=canonicalPathKey observed.toolkitRoot
  sdkRoot : canonicalPathKey previous.sdkRoot=canonicalPathKey observed.sdkRoot
  environmentContract : SameVariables previous.environmentContract observed.environmentContract
  attributes : SameVariables previous.attributes observed.attributes
  standardLibraryIdentity : previous.standardLibraryIdentity=observed.standardLibraryIdentity

/-- A component is gone, or the first that answers to its name is another binary. -/
def Unmatched (observed : ToolchainIdentity) (c : ComponentIdentity) : Prop :=
  ∀ m,observed.findComponent c.name=some m → ¬c.file.sameBinaryAs m.file

/-- A difference in what the comparison of two toolchains looks at: of the SDK root nothing, and
of the environment contract only the length. -/
def Visible (previous observed : ToolchainIdentity) : Prop :=
  (previous.attributes ≠ observed.attributes ∨ previous.version ≠ observed.version ∨
    previous.standardLibraryIdentity ≠ observed.standardLibraryIdentity ∨
    canonicalPathKey previous.toolkitRoot ≠ canonicalPathKey observed.toolkitRoot ∨
    previous.evidenceDigest ≠ observed.evidenceDigest ∨
    previous.environmentContract.length ≠ observed.environmentContract.length) ∨
  (∃ c ∈ previous.components,Unmatched observed c) ∨
  ∃ c ∈ observed.components,previous.findComponent c.name=none

variable {previous observed : ToolchainIdentity}

/-- What `diff_toolchains` calls a mutation. -/
theorem diffToolchains_mutated (hp : previous.id.present=true) (hid : previous.id=observed.id) :
    (diffToolchains previous observed).mutated=true ↔
      previous.canonicalDigest ≠ observed.canonicalDigest ∧ Visible previous observed := by
  have hskip : ¬((!previous.id.present || decide (previous.id ≠ observed.id))=true) := by
    simp [← hid,hp]
  unfold diffToolchains
  rw [if_neg hskip]
  by_cases hd : previous.canonicalDigest=observed.canonicalDigest
  · rw [if_pos hd]
    simp [hd]
  · rw [if_neg hd]
    have hcomponents : (¬(∃ c ∈ previous.components,Unmatched observed c) ↔
        (previous.components.filterMap fun c => (observed.findComponent c.name).bind fun m =>
          if c.file.sameBinaryAs m.file then none else some (changedComponent c m))=[] ∧
        (previous.components.filter fun c => (observed.findComponent c.name).isNone)=[]) := by
      simp only [List.filterMap_eq_nil_iff,List.filter_eq_nil_iff,Unmatched,not_exists,not_and]
      constructor
      · intro h
        refine ⟨fun c hc => ?_,fun c hc hnone => h c hc fun m hm => ?_⟩
        · cases hfind : observed.findComponent c.name with
          | none => rfl
          | some m =>
            have hsame : c.file.sameBinaryAs m.file=true := by
              by_contra hne
              refine h c hc fun m' hm' => ?_
              rwa [← Option.some.inj (hfind.symm.trans hm')]
            simp [hsame]
        · simp [hm] at hnone
      · rintro ⟨hchanged,hremoved⟩ c hc hun
        cases hfind : observed.findComponent c.name with
        | none => simpa [hfind] using hremoved c hc
        | some m =>
          have hsame := hchanged c hc
          simp [hfind,hun m hfind] at hsame
    have hadded : (¬(∃ c ∈ observed.components,previous.findComponent c.name=none) ↔
        (observed.components.filter fun c => (previous.findComponent c.name).isNone)=[]) := by
      simp [List.filter_eq_nil_iff]
    dsimp only
    split_ifs with hnone
    · simp only [List.isEmpty_iff] at hnone
      have hquiet : ¬Visible previous observed := by
        rintro (hm | hc | ha)
        · exact hnone.2.2.2 hm
        · exact hcomponents.2 ⟨hnone.1,hnone.2.1⟩ hc
        · exact hadded.2 hnone.2.2.1 ha
      simp [hquiet]
    · simp only [List.isEmpty_iff] at hnone
      refine iff_of_true rfl ⟨hd,?_⟩
      by_contra hquiet
      have hparts := not_or.1 hquiet
      have hrest := not_or.1 hparts.2
      have hlists := hcomponents.1 hrest.1
      exact hnone ⟨hlists.1,hlists.2,hadded.1 hrest.2,hparts.1⟩

end ToolchainIdentity

namespace ToolchainRegistry

variable {r : ToolchainRegistry} {entry : ToolchainEntry} {observed : ToolchainIdentity}

open ToolchainIdentity

/-- `refresh` leaves the entry as it is. -/
def Leaves (r : ToolchainRegistry) (observed : ToolchainIdentity) (entry : ToolchainEntry) : Prop :=
  ∃ mutation r',r.refresh observed=.ok (mutation,r') ∧ r'.entries[observed.id.value]?=some entry

/-- `refresh` stores the observation, one generation on. -/
def Advances (r : ToolchainRegistry) (observed : ToolchainIdentity) (entry : ToolchainEntry) : Prop :=
  ∃ mutation r' generation,r.refresh observed=.ok (mutation,r') ∧
    r'.entries[observed.id.value]?=some ⟨{ observed with generation },true⟩ ∧
    generation.value.toNat=entry.identity.generation.value.toNat+1

/-- Equal evidence changes nothing, and no difference goes unnoticed. -/
def NoticesDrift (r : ToolchainRegistry) (observed : ToolchainIdentity) (entry : ToolchainEntry) :
    Prop :=
  (entry.identity.canonicalDigest=observed.canonicalDigest → r.Leaves observed entry) ∧
    (¬Alike entry.identity observed → r.Advances observed entry)

theorem refresh_leaves (h : r.entries[observed.id.value]?=some entry)
    (hm : ¬(diffToolchains entry.identity observed).mutated=true) :
    r.refresh observed=.ok (diffToolchains entry.identity observed,r) := by
  unfold refresh
  rw [h]
  simp [hm]

theorem refresh_stores (h : r.entries[observed.id.value]?=some entry)
    (hm : (diffToolchains entry.identity observed).mutated=true) :
    ∃ mutation,r.refresh observed=.ok (mutation,⟨r.entries.insert observed.id.value
      ⟨{ observed with generation := entry.identity.generation.next },true⟩,r.allocator⟩) := by
  unfold refresh
  rw [h]
  simp [hm]

theorem next_value_iff (g : ToolchainGeneration) :
    g.next.value.toNat=g.value.toNat+1 ↔ g.value ≠ Generation.kMax := by
  refine ⟨fun h hmax => ?_,g.next_toNat⟩
  unfold Generation.next at h
  rw [if_pos hmax] at h
  omega

theorem advances_iff (hb : r.Built) (h : r.entries[observed.id.value]?=some entry) :
    r.Advances observed entry ↔ entry.identity.canonicalDigest ≠ observed.canonicalDigest ∧
      Visible entry.identity observed ∧ entry.identity.generation.value ≠ Generation.kMax := by
  obtain ⟨hkey,hp⟩ := hb.filed h
  have hid : entry.identity.id=observed.id := StrongId.ext hkey
  have hmutated := diffToolchains_mutated hp hid
  rw [← and_assoc,← hmutated]
  constructor
  · rintro ⟨mutation,r',generation,hr,hget,hnext⟩
    by_cases hm : (diffToolchains entry.identity observed).mutated=true
    · obtain ⟨mutation',hstored⟩ := refresh_stores h hm
      have hr' := (Prod.mk.inj (Except.ok.inj (hr.symm.trans hstored))).2
      subst hr'
      rw [Std.ExtTreeMap.getElem?_insert_self] at hget
      have hgen := congrArg ToolchainIdentity.generation
        (congrArg ToolchainEntry.identity (Option.some.inj hget))
      dsimp only at hgen
      rw [← hgen] at hnext
      exact ⟨hm,(next_value_iff _).1 hnext⟩
    · have hr' := (Prod.mk.inj (Except.ok.inj (hr.symm.trans (refresh_leaves h hm)))).2
      subst hr'
      have hgen := congrArg (·.identity.generation) (Option.some.inj (h.symm.trans hget))
      dsimp only at hgen
      rw [hgen] at hnext
      omega
  · rintro ⟨hm,hmax⟩
    obtain ⟨mutation,hstored⟩ := refresh_stores h hm
    exact ⟨mutation,_,_,hstored,Std.ExtTreeMap.getElem?_insert_self,(next_value_iff _).2 hmax⟩

/-- Equal digests leave the entry; that is the first thing the comparison looks at. -/
theorem leaves_of_digest (hb : r.Built) (h : r.entries[observed.id.value]?=some entry)
    (hd : entry.identity.canonicalDigest=observed.canonicalDigest) : r.Leaves observed entry := by
  obtain ⟨hkey,hp⟩ := hb.filed h
  have hm : ¬(diffToolchains entry.identity observed).mutated=true := fun hm =>
    ((diffToolchains_mutated hp (StrongId.ext hkey)).1 hm).1 hd
  exact ⟨_,r,refresh_leaves h hm,h⟩

/-- A refresh keeps to what the digests say and notices every difference, exactly when a difference
there is also shows in the digest and in what the comparison looks at, and the generation has not
come to its end. -/
theorem refresh_notices_iff (r : ToolchainRegistry) (hb : r.Built) (observed : ToolchainIdentity)
    (entry : ToolchainEntry) (h : r.entries[observed.id.value]?=some entry) :
    r.NoticesDrift observed entry ↔ (¬Alike entry.identity observed →
      entry.identity.canonicalDigest ≠ observed.canonicalDigest ∧
        Visible entry.identity observed ∧ entry.identity.generation.value ≠ Generation.kMax) := by
  unfold NoticesDrift
  rw [advances_iff hb h]
  exact ⟨fun hn => hn.2,fun hd => ⟨leaves_of_digest hb h,hd⟩⟩

end ToolchainRegistry

namespace Sample

def compilerComponent : ComponentIdentity :=
  { kind := ⟨2⟩,name := ascii "cl",file := { canonicalPath := ascii "C:\\cl.exe",sizeBytes := 1 } }

def probed : ToolchainIdentity :=
  { id := ⟨1⟩
    generation := .initial
    family := ⟨1⟩
    version := ascii "19.40"
    components := [compilerComponent]
    toolkitRoot := ascii "C:\\VC"
    sdkRoot := ascii "C:\\Kits\\10.0.22621"
    evidenceClass := ⟨1⟩ }

/-- The registry once the toolchain is registered. -/
def toolchains : ToolchainRegistry := ⟨(∅ : Table ToolchainEntry).insertIfNew 1 ⟨probed,true⟩,⟨2⟩⟩

theorem toolchains_built : toolchains.Built :=
  .registered .empty (rfl : ToolchainRegistry.registerToolchain {} probed=.ok (⟨⟨1⟩,.initial⟩,toolchains))

theorem toolchains_entry : toolchains.entries[(1 : UInt64)]?=some ⟨probed,true⟩ := by
  unfold toolchains
  rw [Std.ExtTreeMap.getElem?_insertIfNew]
  simp

end Sample

namespace ToolchainRegistry

open ToolchainIdentity

theorem refresh_notices_iff_upgrade :
    let observed := { Sample.probed with version := ascii "19.41" }
    Sample.toolchains.NoticesDrift observed ⟨Sample.probed,true⟩ ↔ (¬Alike Sample.probed observed →
      Sample.probed.canonicalDigest ≠ observed.canonicalDigest ∧ Visible Sample.probed observed ∧
        Sample.probed.generation.value ≠ Generation.kMax) :=
  refresh_notices_iff Sample.toolchains Sample.toolchains_built
    { Sample.probed with version := ascii "19.41" } ⟨Sample.probed,true⟩ Sample.toolchains_entry

/-- Another SDK behind the same compiler is a difference that no refresh notices. -/
theorem not_refresh_notices_sdk :
    let observed := { Sample.probed with sdkRoot := ascii "C:\\Kits\\10.0.26100" }
    Sample.toolchains.Built ∧ Sample.toolchains.entries[observed.id.value]?=some ⟨Sample.probed,true⟩ ∧
      ¬Sample.toolchains.NoticesDrift observed ⟨Sample.probed,true⟩ := by
  refine ⟨Sample.toolchains_built,Sample.toolchains_entry,fun ⟨_,hadvances⟩ => ?_⟩
  have hdiffer : ¬Alike Sample.probed { Sample.probed with sdkRoot := ascii "C:\\Kits\\10.0.26100" } :=
    fun halike => absurd halike.sdkRoot (by decide +kernel)
  have hvisible := ((advances_iff Sample.toolchains_built Sample.toolchains_entry).1
    (hadvances hdiffer)).2.1
  rcases hvisible with (h | h | h | h | h | h) | ⟨c,hc,hun⟩ | ⟨c,hc,hnone⟩
  · exact h rfl
  · exact h rfl
  · exact h rfl
  · exact h rfl
  · exact h rfl
  · exact h rfl
  · obtain rfl := List.mem_singleton.1 hc
    exact hun Sample.compilerComponent (by decide) (by decide)
  · obtain rfl := List.mem_singleton.1 hc
    exact absurd hnone (by decide)

end ToolchainRegistry

end CompilerFabric
