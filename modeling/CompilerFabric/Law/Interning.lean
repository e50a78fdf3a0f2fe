import CompilerFabric.Core.Lineage
import CompilerFabric.Core.Registry

namespace CompilerFabric

open Base

/-- What sets one registry of specs apart from another: its check, its digest, its refusals. -/
structure SpecRules (tag : IdTag) (σ : Type) where
  accept : σ → Result σ
  digestOf : σ → Digest
  absent : String
  missing : String

def EnvironmentRegistry.rules : SpecRules .environment EnvironmentSpec where
  accept := EnvironmentSpec.canonicalize
  digestOf := EnvironmentSpec.canonicalDigest
  absent := "environment identity is absent"
  missing := "environment identity is not registered: "

def TargetRegistry.rules : SpecRules .target TargetSpec where
  accept := TargetSpec.accept
  digestOf := TargetSpec.canonicalDigest
  absent := "target identity is absent"
  missing := "target identity is not registered: "

def PolicyRegistry.rules : SpecRules .policy PolicySpec where
  accept := PolicySpec.accept
  digestOf := PolicySpec.canonicalDigest
  absent := "policy identity is absent"
  missing := "policy identity is not registered: "

/-- A call, and for a search through the map the order in which it is gone through. -/
inductive SpecCall (tag : IdTag) (σ : Type)
  | intern (order : List (UInt64 × SpecEntry tag σ)) (spec : σ)
  | internAs (id : StrongId tag) (spec : σ)
  | revise (id : StrongId tag) (spec : σ)

namespace SpecRules

variable {tag : IdTag} {σ : Type} (rules : SpecRules tag σ)

/-- `intern`, where the entries come up in the given order. -/
def internAmong (order : List (UInt64 × SpecEntry tag σ)) (r : SpecRegistry tag σ) (spec : σ) :
    Result (Ref tag × SpecRegistry tag σ) := do
  let spec ← rules.accept spec
  let digest := rules.digestOf spec
  match order.find? fun e => e.2.current && e.2.identity.digest==digest with
  | some e => return (⟨e.2.identity.id,e.2.identity.generation⟩,r)
  | none =>
      let (id,allocator) := r.allocator.next
      let entry := ⟨⟨id,.initial,digest,spec⟩,true⟩
      return (⟨id,.initial⟩,⟨r.entries.insertIfNew id.value entry,allocator⟩)

def answer (r : SpecRegistry tag σ) : SpecCall tag σ → Result (Ref tag × SpecRegistry tag σ)
  | .intern order spec => rules.internAmong order r spec
  | .internAs id spec => r.internAsWith rules.absent rules.accept rules.digestOf id spec
  | .revise id spec => r.reviseWith rules.missing rules.accept rules.digestOf id spec

/-- A refused call leaves the registry as it is. -/
def after (r : SpecRegistry tag σ) (call : SpecCall tag σ) : SpecRegistry tag σ :=
  match rules.answer r call with
  | .ok (_,r') => r'
  | .error _ => r

variable {rules}

theorem after_ok {r r' : SpecRegistry tag σ} {call : SpecCall tag σ} {reference : Ref tag}
    (h : rules.answer r call=.ok (reference,r')) : rules.after r call=r' := by
  unfold after
  rw [h]

theorem after_error {r : SpecRegistry tag σ} {call : SpecCall tag σ} {status : Status}
    (h : rules.answer r call=.error status) : rules.after r call=r := by
  unfold after
  rw [h]

variable (rules)

/-- Every state of a run, its first and its last among them. -/
def Throughout (P : SpecRegistry tag σ → Prop) :
    SpecRegistry tag σ → List (SpecCall tag σ) → Prop
  | r,[] => P r
  | r,call::calls => P r ∧ Throughout P (rules.after r call) calls

/-- The rules answer as the calls of a registry do, its map gone through as it is listed. -/
structure Serves (intern : SpecRegistry tag σ → σ → Result (Ref tag × SpecRegistry tag σ))
    (internAs revise : SpecRegistry tag σ → StrongId tag → σ →
      Result (Ref tag × SpecRegistry tag σ)) : Prop where
  intern : ∀ r spec,intern r spec=rules.answer r (.intern r.entries.toList spec)
  internAs : ∀ r id spec,internAs r id spec=rules.answer r (.internAs id spec)
  revise : ∀ r id spec,revise r id spec=rules.answer r (.revise id spec)

/-- Every call of a run, in the state it is made in. -/
def EachCall (Q : SpecRegistry tag σ → SpecCall tag σ → Prop) :
    SpecRegistry tag σ → List (SpecCall tag σ) → Prop
  | _,[] => True
  | r,call::calls => Q r call ∧ EachCall Q (rules.after r call) calls

end SpecRules

theorem EnvironmentRegistry.serves : EnvironmentRegistry.rules.Serves EnvironmentRegistry.intern
    EnvironmentRegistry.internAs EnvironmentRegistry.revise :=
  ⟨fun _ _ => rfl,fun _ _ _ => rfl,fun _ _ _ => rfl⟩

theorem TargetRegistry.serves : TargetRegistry.rules.Serves TargetRegistry.intern
    TargetRegistry.internAs TargetRegistry.revise :=
  ⟨fun _ _ => rfl,fun _ _ _ => rfl,fun _ _ _ => rfl⟩

theorem PolicyRegistry.serves : PolicyRegistry.rules.Serves PolicyRegistry.intern
    PolicyRegistry.internAs PolicyRegistry.revise :=
  ⟨fun _ _ => rfl,fun _ _ _ => rfl,fun _ _ _ => rfl⟩

namespace SpecRegistry

variable {tag : IdTag} {σ : Type}

/-- A map may be gone through in any order. -/
def Ordered (r : SpecRegistry tag σ) : SpecCall tag σ → Prop
  | .intern order _ => order.Perm r.entries.toList
  | _ => True

/-- No two current entries have the same digest. -/
def Unique (r : SpecRegistry tag σ) : Prop := ∀ (i j : UInt64) (e f : SpecEntry tag σ),
  r.entries[i]?=some e → r.entries[j]?=some f → e.current → f.current →
    e.identity.digest=f.identity.digest → i=j

/-- No current entry but the one under this identity has the digest. -/
def Free (r : SpecRegistry tag σ) (k : UInt64) (digest : Digest) : Prop :=
  ∀ (j : UInt64) (f : SpecEntry tag σ),r.entries[j]?=some f → f.current → f.identity.digest=digest → j=k

/-- A spec that is registered is interned as the identity it has, in whatever order. -/
def Answers (rules : SpecRules tag σ) (r : SpecRegistry tag σ) : Prop :=
  ∀ spec canonical (i : UInt64) (e : SpecEntry tag σ),rules.accept spec=.ok canonical →
    r.entries[i]?=some e → e.current → e.identity.digest=rules.digestOf canonical →
    ∀ order,order.Perm r.entries.toList →
      rules.internAmong order r spec=.ok (⟨e.identity.id,e.identity.generation⟩,r)

/-- What a call stores under an identity is not current under another one. -/
def Clear (rules : SpecRules tag σ) (r : SpecRegistry tag σ) : SpecCall tag σ → Prop
  | .intern _ _ => True
  | .internAs id spec => id.present → ∀ canonical,rules.accept spec=.ok canonical →
      r.Free id.value (rules.digestOf canonical)
  | .revise id spec => id.value ∈ r.entries → ∀ canonical,rules.accept spec=.ok canonical →
      r.Free id.value (rules.digestOf canonical)

variable {rules : SpecRules tag σ} {r : SpecRegistry tag σ}

theorem mem_of_perm {order : List (UInt64 × SpecEntry tag σ)} (hp : order.Perm r.entries.toList)
    {i : UInt64} {e : SpecEntry tag σ} : (i,e) ∈ order ↔ r.entries[i]?=some e := by
  rw [hp.mem_iff,Std.ExtTreeMap.mem_toList_iff_getElem?_eq_some]

/-- Where digests are unique, the order of the search makes no difference. -/
theorem Unique.answers (h : r.Unique) : r.Answers rules := by
  intro spec canonical i e hacc hi hcur hd order hp
  have hmem := (mem_of_perm hp).2 hi
  cases hfind : order.find? fun e => e.2.current && e.2.identity.digest==rules.digestOf canonical with
  | none =>
    have hnot := List.find?_eq_none.1 hfind _ hmem
    simp [hcur,hd] at hnot
  | some f =>
    have hf := List.find?_some hfind
    simp only [Bool.and_eq_true,beq_iff_eq] at hf
    have hj := (mem_of_perm hp).1 (List.mem_of_find?_eq_some hfind)
    have hkey := h _ _ _ _ hi hj hcur hf.1 (hd.trans hf.2.symm)
    rw [← hkey,hi] at hj
    have hef := Option.some.inj hj
    have hanswer : rules.internAmong order r spec=
        .ok (⟨f.2.identity.id,f.2.identity.generation⟩,r) := by
      unfold SpecRules.internAmong
      rw [hacc]
      dsimp only [bind,Except.bind]
      rw [hfind]
      rfl
    rw [hanswer,hef]

theorem unique_empty : ({} : SpecRegistry tag σ).Unique := by
  intro i j e f hi
  simp at hi

/-- Storing a current entry keeps digests unique exactly when its digest was free. -/
theorem unique_insert (h : r.Unique) {k : UInt64} {e : SpecEntry tag σ} (hcur : e.current)
    (allocator : IdAllocator tag) :
    Unique ⟨r.entries.insert k e,allocator⟩ ↔ r.Free k e.identity.digest := by
  have hk : (r.entries.insert k e)[k]?=some e := Std.ExtTreeMap.getElem?_insert_self
  have hother : ∀ j : UInt64,j ≠ k → (r.entries.insert k e)[j]?=r.entries[j]? := by
    intro j hj
    rw [Std.ExtTreeMap.getElem?_insert,if_neg fun hc => hj (Std.LawfulEqCmp.eq_of_compare hc).symm]
  constructor
  · intro hu j f hj hf hd
    by_contra hne
    exact hne (hu j k f e ((hother j hne).trans hj) hk hf hcur hd)
  · intro hfree i j f g hi hj hf hg hd
    rcases Table.of_insert hi with ⟨hki,rfl⟩ | hi <;> rcases Table.of_insert hj with ⟨hkj,rfl⟩ | hj
    · exact hki.symm.trans hkj
    · exact hki ▸ (hfree j g hj hg hd.symm).symm
    · exact hkj ▸ hfree i f hi hf hd
    · exact h i j f g hi hj hf hg hd

/-- `intern` stores an entry only where it has found none with its digest. -/
theorem Unique.interned {order : List (UInt64 × SpecEntry tag σ)} {spec : σ} (h : r.Unique)
    (hp : order.Perm r.entries.toList) : (rules.after r (.intern order spec)).Unique := by
  cases hacc : rules.accept spec with
  | error status =>
    have hanswer : rules.answer r (.intern order spec)=.error status := by
      simp [SpecRules.answer,SpecRules.internAmong,hacc,bind,Except.bind]
    rwa [SpecRules.after_error hanswer]
  | ok canonical =>
    cases hfind : order.find? fun e =>
        e.2.current && e.2.identity.digest==rules.digestOf canonical with
    | some e =>
      have hanswer : rules.answer r (.intern order spec)=
          .ok (⟨e.2.identity.id,e.2.identity.generation⟩,r) := by
        simp [SpecRules.answer,SpecRules.internAmong,hacc,hfind,bind,Except.bind,pure,Except.pure]
      rwa [SpecRules.after_ok hanswer]
    | none =>
      have hanswer : rules.answer r (.intern order spec)=.ok (⟨r.allocator.next.1,.initial⟩,
          ⟨r.entries.insertIfNew r.allocator.next.1.value
            ⟨⟨r.allocator.next.1,.initial,rules.digestOf canonical,canonical⟩,true⟩,
            r.allocator.next.2⟩) := by
        simp [SpecRules.answer,SpecRules.internAmong,hacc,hfind,bind,Except.bind,pure,Except.pure]
      rw [SpecRules.after_ok hanswer]
      have hnone : ∀ (j : UInt64) (f : SpecEntry tag σ),r.entries[j]?=some f → f.current →
          f.identity.digest ≠ rules.digestOf canonical := by
        intro j f hj hf hd
        have hnot := List.find?_eq_none.1 hfind _ ((mem_of_perm hp).2 hj)
        simp [hf,hd] at hnot
      intro i j e f hi hj he hf hd
      rcases Table.of_insertIfNew hi with ⟨hki,rfl⟩ | hi <;>
        rcases Table.of_insertIfNew hj with ⟨hkj,rfl⟩ | hj
      · exact hki.symm.trans hkj
      · exact absurd hd.symm (hnone j f hj hf)
      · exact absurd hd (hnone i e hi he)
      · exact h i j e f hi hj he hf hd

theorem unique_internAs (h : r.Unique) (id : StrongId tag) (spec : σ) :
    (rules.after r (.internAs id spec)).Unique ↔ r.Clear rules (.internAs id spec) := by
  by_cases hid : id.present
  · have hcheck : ensure (id.present=true) (.of .invalidIdentity rules.absent)=.ok () :=
      ensure_ok.2 hid
    cases hacc : rules.accept spec with
    | error status =>
      have hanswer : rules.answer r (.internAs id spec)=.error status := by
        simp [SpecRules.answer,internAsWith,hcheck,hacc,bind,Except.bind]
      rw [SpecRules.after_error hanswer]
      exact iff_of_true h fun _ _ hok => nomatch hacc.symm.trans hok
    | ok canonical =>
      have hanswer : rules.answer r (.internAs id spec)=.ok (⟨id,.initial⟩,
          ⟨r.entries.insert id.value ⟨⟨id,.initial,rules.digestOf canonical,canonical⟩,true⟩,
            r.allocator.observe id⟩) := by
        simp [SpecRules.answer,internAsWith,hcheck,hacc,bind,Except.bind,pure,Except.pure]
      rw [SpecRules.after_ok hanswer,unique_insert h rfl]
      simp [Clear,hid,hacc]
  · have hanswer : rules.answer r (.internAs id spec)=.error (.of .invalidIdentity rules.absent) := by
      simp [SpecRules.answer,internAsWith,ensure,hid,bind,Except.bind]
    rw [SpecRules.after_error hanswer]
    exact iff_of_true h fun hpresent => absurd hpresent hid

theorem unique_revise (h : r.Unique) (id : StrongId tag) (spec : σ) :
    (rules.after r (.revise id spec)).Unique ↔ r.Clear rules (.revise id spec) := by
  cases hget : r.entries[id.value]? with
  | none =>
    have hanswer : rules.answer r (.revise id spec)=
        .error ⟨.notFound,ascii rules.missing++id.toText⟩ := by
      simp [SpecRules.answer,reviseWith,hget,bind,Except.bind]
    rw [SpecRules.after_error hanswer]
    refine iff_of_true h fun hmem => ?_
    simp [Std.ExtTreeMap.mem_iff_isSome_getElem?,hget] at hmem
  | some entry =>
    have hmem : id.value ∈ r.entries := by
      simp [Std.ExtTreeMap.mem_iff_isSome_getElem?,hget]
    cases hacc : rules.accept spec with
    | error status =>
      have hanswer : rules.answer r (.revise id spec)=.error status := by
        simp [SpecRules.answer,reviseWith,hget,hacc,bind,Except.bind]
      rw [SpecRules.after_error hanswer]
      exact iff_of_true h fun _ _ hok => nomatch hacc.symm.trans hok
    | ok canonical =>
      have hclear : r.Clear rules (.revise id spec) ↔
          r.Free id.value (rules.digestOf canonical) := by simp [Clear,hmem,hacc]
      rw [hclear]
      by_cases hsame : entry.identity.digest=rules.digestOf canonical ∧ entry.current
      · have hanswer : rules.answer r (.revise id spec)=.ok (⟨id,entry.identity.generation⟩,r) := by
          simp [SpecRules.answer,reviseWith,hget,hacc,hsame,bind,Except.bind,pure,Except.pure]
        rw [SpecRules.after_ok hanswer]
        refine iff_of_true h ?_
        intro j f hj hf hd
        exact h j id.value f entry hj hget hf hsame.2 (hd.trans hsame.1.symm)
      · have hanswer : rules.answer r (.revise id spec)=.ok (⟨id,entry.identity.generation.next⟩,
            { r with entries := r.entries.insert id.value ⟨{ entry.identity with
                generation := entry.identity.generation.next
                digest := rules.digestOf canonical
                spec := canonical },true⟩ }) := by
          simp [SpecRules.answer,reviseWith,hget,hacc,hsame,bind,Except.bind,pure,Except.pure]
        rw [SpecRules.after_ok hanswer]
        exact unique_insert h rfl _

/-- What one call does to the uniqueness of digests. -/
theorem unique_after (h : r.Unique) {call : SpecCall tag σ} (ho : r.Ordered call) :
    (rules.after r call).Unique ↔ r.Clear rules call := by
  cases call with
  | intern order spec => exact iff_of_true (h.interned ho) trivial
  | internAs id spec => exact unique_internAs h id spec
  | revise id spec => exact unique_revise h id spec

end SpecRegistry

namespace SpecRules

variable {tag : IdTag} {σ : Type} (rules : SpecRules tag σ)

/-- Digests unique, and registered specs interned as what they are. -/
def Interned (r : SpecRegistry tag σ) : Prop := r.Unique ∧ r.Answers rules

theorem throughout_interned_iff {r : SpecRegistry tag σ} {calls : List (SpecCall tag σ)}
    (h : r.Unique) (ho : rules.EachCall SpecRegistry.Ordered r calls) :
    rules.Throughout rules.Interned r calls ↔ rules.EachCall (SpecRegistry.Clear rules) r calls := by
  induction calls generalizing r with
  | nil => exact iff_of_true ⟨h,h.answers⟩ trivial
  | cons call calls ih =>
    obtain ⟨hcall,hcalls⟩ := ho
    have hstep : (rules.after r call).Unique ↔ r.Clear rules call :=
      SpecRegistry.unique_after h hcall
    constructor
    · rintro ⟨_,hrest⟩
      have hu : (rules.after r call).Unique := by
        cases calls with
        | nil => exact hrest.1
        | cons _ _ => exact hrest.1.1
      exact ⟨hstep.1 hu,(ih hu hcalls).1 hrest⟩
    · rintro ⟨hclear,hrest⟩
      have hu := hstep.2 hclear
      exact ⟨⟨h,h.answers⟩,(ih hu hcalls).2 hrest⟩

/-- A run of calls on a registry that starts out empty. -/
def Legal (calls : List (SpecCall tag σ)) : Prop := rules.EachCall SpecRegistry.Ordered {} calls

end SpecRules

/-- In every run of the calls of each of the registries digests stay unique, and interning a
registered spec gives its identity in whatever order, exactly when no call stores under one identity
what is current under another. -/
theorem registries_interned_iff
    (environments : List (SpecCall .environment EnvironmentSpec))
    (targets : List (SpecCall .target TargetSpec)) (policies : List (SpecCall .policy PolicySpec))
    (he : EnvironmentRegistry.rules.Legal environments) (ht : TargetRegistry.rules.Legal targets)
    (hp : PolicyRegistry.rules.Legal policies) :
    (EnvironmentRegistry.rules.Serves EnvironmentRegistry.intern EnvironmentRegistry.internAs
        EnvironmentRegistry.revise ∧
      (EnvironmentRegistry.rules.Throughout EnvironmentRegistry.rules.Interned {} environments ↔
        EnvironmentRegistry.rules.EachCall (SpecRegistry.Clear EnvironmentRegistry.rules) {}
          environments)) ∧
    (TargetRegistry.rules.Serves TargetRegistry.intern TargetRegistry.internAs
        TargetRegistry.revise ∧
      (TargetRegistry.rules.Throughout TargetRegistry.rules.Interned {} targets ↔
        TargetRegistry.rules.EachCall (SpecRegistry.Clear TargetRegistry.rules) {} targets)) ∧
    (PolicyRegistry.rules.Serves PolicyRegistry.intern PolicyRegistry.internAs
        PolicyRegistry.revise ∧
      (PolicyRegistry.rules.Throughout PolicyRegistry.rules.Interned {} policies ↔
        PolicyRegistry.rules.EachCall (SpecRegistry.Clear PolicyRegistry.rules) {} policies)) :=
  ⟨⟨EnvironmentRegistry.serves,SpecRules.throughout_interned_iff _ SpecRegistry.unique_empty he⟩,
    ⟨TargetRegistry.serves,SpecRules.throughout_interned_iff _ SpecRegistry.unique_empty ht⟩,
    ⟨PolicyRegistry.serves,SpecRules.throughout_interned_iff _ SpecRegistry.unique_empty hp⟩⟩

namespace Sample

def x64Target : TargetSpec := { architecture := ⟨2⟩,os := ⟨1⟩,triple := ascii "x64" }

def x86Target : TargetSpec := { architecture := ⟨1⟩,os := ⟨1⟩,triple := ascii "x86" }

def oneTarget : TargetRegistry := TargetRegistry.rules.after {} (.intern [] x64Target)

def twoTargets : TargetRegistry :=
  TargetRegistry.rules.after oneTarget (.intern oneTarget.entries.toList x86Target)

/-- The second target is revised to be the first. -/
def revisedTargets : TargetRegistry := TargetRegistry.rules.after twoTargets (.revise ⟨2⟩ x64Target)

def targetCalls : List (SpecCall .target TargetSpec) :=
  [.intern [] x64Target,.intern oneTarget.entries.toList x86Target,.revise ⟨2⟩ x64Target]

theorem legal_targetCalls : TargetRegistry.rules.Legal targetCalls :=
  ⟨.refl [],.refl _,trivial,trivial⟩

end Sample

theorem registries_interned_iff_targets :
    TargetRegistry.rules.Legal Sample.targetCalls ∧
      (TargetRegistry.rules.Throughout TargetRegistry.rules.Interned {} Sample.targetCalls ↔
        TargetRegistry.rules.EachCall (SpecRegistry.Clear TargetRegistry.rules) {}
          Sample.targetCalls) :=
  ⟨Sample.legal_targetCalls,
    (registries_interned_iff [] Sample.targetCalls [] trivial Sample.legal_targetCalls trivial).2.1.2⟩

/-- After the revision two identities have one digest, and which of them a spec is interned as
depends on the order of the search. -/
theorem registries_not_interned :
    TargetRegistry.rules.Legal Sample.targetCalls ∧
      ¬TargetRegistry.rules.Throughout TargetRegistry.rules.Interned {} Sample.targetCalls ∧
      ∃ order,order.Perm Sample.revisedTargets.entries.toList ∧
        TargetRegistry.rules.internAmong order Sample.revisedTargets Sample.x64Target ≠
          TargetRegistry.rules.internAmong Sample.revisedTargets.entries.toList
            Sample.revisedTargets Sample.x64Target := by
  refine ⟨Sample.legal_targetCalls,?_,_,List.reverse_perm _,?_⟩
  · rintro ⟨_,_,_,hu,_⟩
    have hsame : (Sample.revisedTargets.entries[(1 : UInt64)]?.any fun e =>
        Sample.revisedTargets.entries[(2 : UInt64)]?.any fun f =>
          e.current && f.current && e.identity.digest==f.identity.digest)=true := by decide +kernel
    obtain ⟨e,he,hf⟩ := (Option.any_eq_true _ _).1 hsame
    obtain ⟨f,hf,hd⟩ := (Option.any_eq_true _ _).1 hf
    simp only [Bool.and_eq_true,beq_iff_eq] at hd
    exact absurd (hu 1 2 e f he hf hd.1.1 hd.1.2 hd.2) (by decide)
  · intro hsame
    have hids : (TargetRegistry.rules.internAmong Sample.revisedTargets.entries.toList.reverse
        Sample.revisedTargets Sample.x64Target).toOption.map (·.1) ≠
      (TargetRegistry.rules.internAmong Sample.revisedTargets.entries.toList
        Sample.revisedTargets Sample.x64Target).toOption.map (·.1) := by decide +kernel
    exact hids (by rw [hsame])

end CompilerFabric
