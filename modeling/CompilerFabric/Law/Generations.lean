import CompilerFabric.Runtime.Restart

namespace CompilerFabric

open Base Base.Action

section Replay

variable {tag : IdTag}

/-- What a start reads from a bundle about one kind of identity, and what the registry holds. -/
structure Reloaded (tag : IdTag) where
  recorded : SessionBundle → Option (Ref tag)
  bound : SessionBundle → Ref tag
  /-- The generation the registry gives to one that was recorded. -/
  stored : Generation tag → Generation tag

namespace Reloaded

variable (K : Reloaded tag)

/-- The generation held for `id` once `b` is reloaded over `held`. -/
def reload (id : StrongId tag) (held : Option (Generation tag)) (b : SessionBundle) :
    Option (Generation tag) :=
  match K.recorded b with
  | none => held
  | some r => if r.id=id then some (K.stored r.generation) else held

def reloadAll (bundles : List SessionBundle) (id : StrongId tag) : Option (Generation tag) :=
  bundles.foldl (K.reload id) none

/-- No recorded generation is above the one the last bundle that names its identity leaves. -/
def LastHighest (bundles : List SessionBundle) : Prop :=
  ∀ b ∈ bundles,∀ r,K.recorded b=some r →
    ∃ g,K.reloadAll bundles r.id=some g ∧ r.generation.value ≤ g.value

/-- Generations survive a restart: none is lost, a binding that was overtaken stays stale and
one that was not stays current. -/
structure Survive (bundles : List SessionBundle)
    (registered : StrongId tag → Option (Generation tag)) : Prop where
  kept : ∀ b ∈ bundles,∀ r,K.recorded b=some r →
    ∃ g,registered r.id=some g ∧ r.generation.value ≤ g.value
  stale : ∀ b ∈ bundles,∀ b' ∈ bundles,∀ r,K.recorded b'=some r → r.id=(K.bound b).id →
    (K.bound b).generation.value<r.generation.value →
    registered (K.bound b).id ≠ some (K.bound b).generation
  current : ∀ b ∈ bundles,K.recorded b=some (K.bound b) → (K.bound b).generation.present →
    (∀ b' ∈ bundles,∀ r,K.recorded b'=some r → r.id=(K.bound b).id →
      r.generation.value ≤ (K.bound b).generation.value) →
    registered (K.bound b).id=some (K.bound b).generation

/-- What the reload of a list leaves was already held, or one of its bundles recorded it. -/
theorem foldl_reload_some {id : StrongId tag} {held : Option (Generation tag)}
    {bundles : List SessionBundle} {g : Generation tag}
    (h : bundles.foldl (K.reload id) held=some g) : held=some g ∨
      ∃ b ∈ bundles,∃ r,K.recorded b=some r ∧ r.id=id ∧ K.stored r.generation=g := by
  induction bundles generalizing held with
  | nil => exact .inl h
  | cons b bundles ih =>
    rcases ih h with hb | ⟨b',hb',hr⟩
    · simp only [reload] at hb
      split at hb
      · exact .inl hb
      · next r hr =>
        split at hb
        · next hid => exact .inr ⟨b,List.mem_cons_self,r,hr,hid,Option.some.inj hb⟩
        · exact .inl hb
    · exact .inr ⟨b',List.mem_cons_of_mem _ hb',hr⟩

/-- A recorded generation is stored as it is, but for an absent one; or every one is stored as
the initial one. -/
def Faithful : Prop := ∀ g : Generation tag,K.stored g=.initial ∨ g.present ∧ K.stored g=g

theorem survive_iff (hf : K.Faithful) (bundles : List SessionBundle) :
    K.Survive bundles (K.reloadAll bundles) ↔ K.LastHighest bundles := by
  constructor
  · intro h
    exact h.kept
  · intro h
    refine ⟨h,?_,?_⟩
    · intro b _ b' hb' r hr hid hlt he
      have ⟨g,hg,hle⟩ := h b' hb' r hr
      rw [hid,he] at hg
      cases hg
      exact absurd hle (UInt64.not_le.2 hlt)
    · intro b hb hr hp hmax
      have ⟨g,hg,hle⟩ := h b hb _ hr
      rw [hg]
      have hge : g.value ≤ (K.bound b).generation.value := by
        rcases K.foldl_reload_some hg with hn | ⟨b',hb',r,hr',hid,hst⟩
        · cases hn
        · rcases hf r.generation with hi | ⟨_,hs⟩
          · rw [← hst,hi]
            have hne : (K.bound b).generation.value ≠ 0 := by simpa [Generation.present] using hp
            show (1 : UInt64) ≤ _
            have hpos := UInt64.pos_iff_ne_zero.2 hne
            exact UInt64.le_iff_toNat_le.2 (UInt64.lt_iff_toNat_lt.1 hpos)
          · rw [← hst,hs]
            exact hmax b' hb' r hr' hid
      exact congrArg some (Generation.ext (UInt64.le_antisymm hge hle))

/-- Every recorded generation is the initial one. -/
def Unrevised (bundles : List SessionBundle) : Prop :=
  ∀ b ∈ bundles,∀ r,K.recorded b=some r → r.generation.value ≤ 1

instance (bundles : List SessionBundle) : Decidable (K.LastHighest bundles) :=
  inferInstanceAs (Decidable (∀ b ∈ bundles,∀ r ∈ K.recorded b,
    ∃ g ∈ K.reloadAll bundles r.id,r.generation.value ≤ g.value))

instance (bundles : List SessionBundle) : Decidable (K.Unrevised bundles) :=
  inferInstanceAs (Decidable (∀ b ∈ bundles,∀ r ∈ K.recorded b,r.generation.value ≤ 1))

theorem foldl_reload_isSome {id : StrongId tag} {held : Option (Generation tag)}
    {bundles : List SessionBundle} (h : held.isSome ∨
      ∃ b ∈ bundles,∃ r,K.recorded b=some r ∧ r.id=id) :
    (bundles.foldl (K.reload id) held).isSome := by
  induction bundles generalizing held with
  | nil => simpa using h
  | cons b bundles ih =>
    apply ih
    rcases h with hs | ⟨b',hb',r,hr,hid⟩
    · left
      simp only [reload]
      split
      · exact hs
      · split
        · rfl
        · exact hs
    · rcases List.mem_cons.1 hb' with rfl | hb'
      · left
        simp [reload,hr,hid]
      · exact .inr ⟨b',hb',r,hr,hid⟩

/-- Where a reload starts over, nothing but initial generations is safe. -/
theorem lastHighest_iff_unrevised (hi : ∀ g,K.stored g=.initial) (bundles : List SessionBundle) :
    K.LastHighest bundles ↔ K.Unrevised bundles := by
  have left_initial {id : StrongId tag} {g : Generation tag}
      (h : K.reloadAll bundles id=some g) : g=.initial := by
    rcases K.foldl_reload_some h with hn | ⟨_,_,r,_,_,hst⟩
    · cases hn
    · rw [← hst,hi]
  constructor
  · intro h b hb r hr
    have ⟨g,hg,hle⟩ := h b hb r hr
    rwa [left_initial hg] at hle
  · intro h b hb r hr
    have hs : (bundles.foldl (K.reload r.id) none).isSome :=
      K.foldl_reload_isSome (.inr ⟨b,hb,r,hr,rfl⟩)
    have ⟨g,hg⟩ := Option.isSome_iff_exists.1 hs
    refine ⟨g,hg,?_⟩
    rw [left_initial hg]
    exact h b hb r hr

end Reloaded

end Replay

/-- An encoded section of a bundle, where there is one. -/
def sectionOf {α : Type} (bytes : Bytes) (decode : Bytes → Result α) : Option α :=
  if bytes.isEmpty then none else (decode bytes).toOption

/-- `register_toolchain_as` keeps the recorded generation. -/
def toolchainsReloaded : Reloaded .toolchain where
  recorded b := (sectionOf b.toolchain decodeToolchain).map fun t => ⟨t.id,t.generation⟩
  bound b := b.session.toolchain
  stored g := if g.present then g else .initial

/-- `intern_as` starts over. -/
def targetsReloaded : Reloaded .target where
  recorded b := (sectionOf b.target decodeTargetIdentity).map fun t => ⟨t.id,t.generation⟩
  bound b := b.session.target
  stored _ := .initial

def environmentsReloaded : Reloaded .environment where
  recorded b := (sectionOf b.environment decodeEnvironmentIdentity).map fun e => ⟨e.id,e.generation⟩
  bound b := b.session.environment
  stored _ := .initial

def policiesReloaded : Reloaded .policy where
  recorded b := (sectionOf b.policy decodePolicyIdentity).map fun p => ⟨p.id,p.generation⟩
  bound b := b.session.policy
  stored _ := .initial

namespace Runtime

variable (w : World)

/-- The registered generations of the identities a session binds to. -/
structure Generations where
  toolchain : ToolchainId → Option (Generation .toolchain)
  target : TargetId → Option (Generation .target)
  environment : EnvironmentId → Option (Generation .environment)
  policy : PolicyId → Option (Generation .policy)

def generations (rt : Runtime) : Generations where
  toolchain id := (rt.toolchains.find id).map (·.generation)
  target id := (rt.targets.find id).map (·.generation)
  environment id := (rt.environments.find id).map (·.generation)
  policy id := (rt.policies.find id).map (·.generation)

/-- What the reload of one bundle makes of the registered generations. -/
def Generations.reload (g : Generations) (b : SessionBundle) : Generations where
  toolchain id := toolchainsReloaded.reload id (g.toolchain id) b
  target id := targetsReloaded.reload id (g.target id) b
  environment id := environmentsReloaded.reload id (g.environment id) b
  policy id := policiesReloaded.reload id (g.policy id) b

/-- No generation is registered anew. -/
def SameGenerations (rt t : Runtime) : Prop := t.generations=rt.generations

instance : IsPreorder Runtime SameGenerations where
  refl _ := rfl
  trans _ _ _ h h' := h'.trans h

section Frame

theorem persist_generations (session : CompilerSession) :
    Within SameGenerations (persist w session) := by
  intro rt
  cases h : persist w session rt with
  | mk result t =>
    have ⟨_,_,ht⟩ := persist_frame w h
    rw [ht]
    rfl

theorem fencePhases_generations (reason : Bytes) (order : List CompilerPhaseId)
    (session : CompilerSession) : Within SameGenerations (fencePhases w reason order session) := by
  induction order generalizing session with
  | nil => exact .pure _
  | cons id rest ih =>
    refine Within.bind ?_ fun s => ih s
    unfold fencePhase
    split
    · exact .pure _
    · split
      · exact .pure _
      · exact Within.bind (fun _ => rfl) fun _ => Within.bind (fun _ => rfl) fun _ => .pure _

theorem reload_generations {α : Type} (bytes : Bytes) (decode : Bytes → Result α)
    {register : α → Op Unit} (h : ∀ a,Within SameGenerations (register a)) :
    Within SameGenerations (reload bytes decode register) := by
  unfold reload
  split
  · exact .pure _
  · exact (Within.ofExcept _).bind h

theorem onSources_generations (f : SourceRegistry → Result (Ref .source × SourceRegistry)) :
    Within SameGenerations (onSources f) := by
  intro rt
  unfold onSources
  split <;> rfl

theorem reloadArtifact_generations (artifact : IntermediateArtifact) :
    Within SameGenerations (reloadArtifact artifact) := by
  intro rt
  unfold reloadArtifact
  split <;> rfl

theorem reloadDiagnostics_generations (set : DiagnosticSet) :
    Within SameGenerations (reloadDiagnostics set) := by
  intro rt
  unfold reloadDiagnostics
  split <;> rfl

end Frame

section Reload

/-- A section that is reloaded is absent, or decoded and registered. -/
theorem reload_ok {α : Type} {bytes : Bytes} {decode : Bytes → Result α} {register : α → Op Unit}
    {rt t : Runtime} (h : reload bytes decode register rt=(.ok (),t)) :
    sectionOf bytes decode=none ∧ t=rt ∨
      ∃ a,sectionOf bytes decode=some a ∧ register a rt=(.ok (),t) := by
  unfold reload at h
  unfold sectionOf
  split at h
  · next he =>
    cases h
    exact .inl ⟨if_pos he,rfl⟩
  · next he =>
    have ⟨a,_,ha,h⟩ := seq_eq_ok.1 h
    have ⟨hd,hs⟩ := ofExcept_eq_ok.1 ha
    subst hs
    refine .inr ⟨a,?_,h⟩
    rw [if_neg he,hd]
    rfl

theorem internAsWith_find {tag : IdTag} {σ : Type} {absent : String} {accept : σ → Result σ}
    {digestOf : σ → Digest} {r r' : SpecRegistry tag σ} {id : StrongId tag} {spec : σ}
    {reference : Ref tag} (h : r.internAsWith absent accept digestOf id spec=.ok (reference,r'))
    (id' : StrongId tag) : (r'.find id').map (·.generation)=
      if id=id' then some .initial else (r.find id').map (·.generation) := by
  simp only [SpecRegistry.internAsWith,do_eq_ok] at h
  obtain ⟨_,_,_,_,h⟩ := h
  cases h
  simp only [SpecRegistry.find,Std.ExtTreeMap.getElem?_insert]
  by_cases hi : id=id'
  · simp [hi]
  · have hc : compare id.value id'.value ≠ .eq :=
      fun hc => hi (StrongId.ext (Std.LawfulEqCmp.eq_of_compare hc))
    simp [hi,hc]

theorem registerToolchainAs_find {r r' : ToolchainRegistry} {id : ToolchainId}
    {identity : ToolchainIdentity} {reference : Ref .toolchain}
    (h : r.registerToolchainAs id identity=.ok (reference,r')) (id' : ToolchainId) :
    (r'.find id').map (·.generation)=
      if id=id' then some (toolchainsReloaded.stored identity.generation)
      else (r.find id').map (·.generation) := by
  unfold ToolchainRegistry.registerToolchainAs at h
  split at h
  · cases h
  · cases h
    simp only [ToolchainRegistry.find,Std.ExtTreeMap.getElem?_insert]
    by_cases hi : id=id'
    · simp [hi,toolchainsReloaded]
    · have hc : compare id.value id'.value ≠ .eq :=
        fun hc => hi (StrongId.ext (Std.LawfulEqCmp.eq_of_compare hc))
      simp [hi,hc]

theorem reloadToolchain_generations {b : SessionBundle} {rt t : Runtime}
    (h : reload b.toolchain decodeToolchain (fun identity => do
      let _ ← onToolchains (·.registerToolchainAs identity.id identity)) rt=(.ok (),t)) :
    t.generations={ rt.generations with toolchain := (rt.generations.reload b).toolchain } := by
  have hr : toolchainsReloaded.recorded b=(sectionOf b.toolchain decodeToolchain).map
    fun t => ⟨t.id,t.generation⟩ := rfl
  rcases reload_ok h with ⟨hn,ht⟩ | ⟨identity,hs,h⟩
  · rw [hn] at hr
    simp only [ht,Generations.reload,Reloaded.reload,hr]
    rfl
  · rw [hs] at hr
    have ⟨_,u,hu,h⟩ := seq_eq_ok.1 h
    cases h
    unfold onToolchains at hu
    split at hu
    · cases hu
    · next hok =>
      cases hu
      simp only [Generations.reload,Reloaded.reload,hr]
      simp only [generations,registerToolchainAs_find hok]
      rfl

/-- The reload of a spec identity: `view` is its registry and `put` writes it. -/
theorem reload_spec {tag : IdTag} {σ : Type} (K : Reloaded tag) {b : SessionBundle} {bytes : Bytes}
    {decode : Bytes → Result (SpecIdentity tag σ)} (view : Runtime → SpecRegistry tag σ)
    (put : Runtime → SpecRegistry tag σ → Runtime)
    (on : (SpecRegistry tag σ → Result (Ref tag × SpecRegistry tag σ)) → Op (Ref tag))
    (intern : SpecRegistry tag σ → StrongId tag → σ → Result (Ref tag × SpecRegistry tag σ))
    (hin : ∀ r id spec reference r',intern r id spec=.ok (reference,r') →
      ∀ id' : StrongId tag,(r'.find id').map (·.generation)=
        if id=id' then some .initial else (r.find id').map (·.generation))
    (hon : ∀ f rt a t,on f rt=(.ok a,t) → ∃ r,f (view rt)=.ok (a,r) ∧ t=put rt r)
    (hr : K.recorded b=(sectionOf bytes decode).map fun i => ⟨i.id,i.generation⟩)
    (hst : ∀ g,K.stored g=.initial) {rt t : Runtime}
    (h : reload bytes decode (fun identity => do
      let _ ← on fun r => intern r identity.id identity.spec) rt=(.ok (),t)) :
    t=rt ∧ K.recorded b=none ∨ ∃ r,t=put rt r ∧ ∀ id,(r.find id).map (·.generation)=
      K.reload id (((view rt).find id).map (·.generation)) b := by
  rcases reload_ok h with ⟨hn,ht⟩ | ⟨identity,hs,h⟩
  · rw [hn] at hr
    exact .inl ⟨ht,hr⟩
  · rw [hs] at hr
    have ⟨_,u,hu,h⟩ := seq_eq_ok.1 h
    cases h
    have ⟨r,hok,hput⟩ := hon _ _ _ _ hu
    refine .inr ⟨r,hput,?_⟩
    intro id
    simp only [Reloaded.reload,hr,Option.map_some,hin _ _ _ _ _ hok,hst]

theorem reloadTarget_generations {b : SessionBundle} {rt t : Runtime}
    (h : reload b.target decodeTargetIdentity (fun identity => do
      let _ ← onTargets (·.internAs identity.id identity.spec)) rt=(.ok (),t)) :
    t.generations={ rt.generations with target := (rt.generations.reload b).target } := by
  have hon (f) (rt : Runtime) (a) (t : Runtime) (h : onTargets f rt=(.ok a,t)) :
      ∃ r,f rt.targets=.ok (a,r) ∧ t={ rt with targets := r } := by
    unfold onTargets at h
    split at h <;> cases h
    exact ⟨_,by assumption,rfl⟩
  rcases reload_spec targetsReloaded (·.targets) (fun rt targets => { rt with targets }) onTargets
    TargetRegistry.internAs (fun _ _ _ _ _ => internAsWith_find) hon rfl (fun _ => rfl) h
    with ⟨ht,hn⟩ | ⟨r,ht,hf⟩
  · simp only [ht,Generations.reload,Reloaded.reload,hn]
  · simp only [ht,generations,Generations.reload,hf]

theorem reloadEnvironment_generations {b : SessionBundle} {rt t : Runtime}
    (h : reload b.environment decodeEnvironmentIdentity (fun identity => do
      let _ ← onEnvironments (·.internAs identity.id identity.spec)) rt=(.ok (),t)) :
    t.generations={ rt.generations with environment := (rt.generations.reload b).environment } := by
  have hon (f) (rt : Runtime) (a) (t : Runtime) (h : onEnvironments f rt=(.ok a,t)) :
      ∃ r,f rt.environments=.ok (a,r) ∧ t={ rt with environments := r } := by
    unfold onEnvironments at h
    split at h <;> cases h
    exact ⟨_,by assumption,rfl⟩
  rcases reload_spec environmentsReloaded (·.environments) (fun rt environments => { rt with environments }) onEnvironments
    EnvironmentRegistry.internAs (fun _ _ _ _ _ => internAsWith_find) hon rfl (fun _ => rfl) h
    with ⟨ht,hn⟩ | ⟨r,ht,hf⟩
  · simp only [ht,Generations.reload,Reloaded.reload,hn]
  · simp only [ht,generations,Generations.reload,hf]

theorem reloadPolicy_generations {b : SessionBundle} {rt t : Runtime}
    (h : reload b.policy decodePolicyIdentity (fun identity => do
      let _ ← onPolicies (·.internAs identity.id identity.spec)) rt=(.ok (),t)) :
    t.generations={ rt.generations with policy := (rt.generations.reload b).policy } := by
  have hon (f) (rt : Runtime) (a) (t : Runtime) (h : onPolicies f rt=(.ok a,t)) :
      ∃ r,f rt.policies=.ok (a,r) ∧ t={ rt with policies := r } := by
    unfold onPolicies at h
    split at h <;> cases h
    exact ⟨_,by assumption,rfl⟩
  rcases reload_spec policiesReloaded (·.policies) (fun rt policies => { rt with policies }) onPolicies
    PolicyRegistry.internAs (fun _ _ _ _ _ => internAsWith_find) hon rfl (fun _ => rfl) h
    with ⟨ht,hn⟩ | ⟨r,ht,hf⟩
  · simp only [ht,Generations.reload,Reloaded.reload,hn]
  · simp only [ht,generations,Generations.reload,hf]

theorem reloadAuthority_generations {b : SessionBundle} {rt t : Runtime}
    (h : reloadAuthority b rt=(.ok (),t)) : t.generations=rt.generations.reload b := by
  have ⟨_,t₁,h₁,h⟩ := seq_eq_ok.1 h
  have ⟨_,t₂,h₂,h⟩ := seq_eq_ok.1 h
  have ⟨_,t₃,h₃,h⟩ := seq_eq_ok.1 h
  have ⟨_,t₄,h₄,h⟩ := seq_eq_ok.1 h
  have hrest : Within SameGenerations (do
      forEach (fun encoded => reload encoded decodeSourceUnit fun unit => do
        let _ ← onSources (·.addAs unit.id unit)) b.sources
      forEach reloadArtifact b.artifacts
      forEach (fun encoded => reload encoded decodeProvenance fun record =>
        modify fun rt => { rt with provenance := rt.provenance.appendAs record }) b.provenance
      forEach reloadDiagnostics b.diagnostics) := by
    refine (Within.forEach (fun _ => reload_generations _ _ fun _ =>
      (onSources_generations _).bind fun _ => .pure _) _).bind fun _ => ?_
    refine (Within.forEach reloadArtifact_generations _).bind fun _ => ?_
    refine Within.bind (Within.forEach (fun _ => reload_generations _ _ ?_) _) fun _ => ?_
    · exact fun _ _ => rfl
    exact Within.forEach reloadDiagnostics_generations _
  have ht := hrest t₄
  rw [h] at ht
  have ht : t.generations=t₄.generations := ht
  rw [ht,reloadPolicy_generations h₄,reloadEnvironment_generations h₃,
    reloadTarget_generations h₂,reloadToolchain_generations h₁]
  rfl

theorem recoverSession_generations {b : SessionBundle} {rt t : Runtime}
    (h : recoverSession w b rt=(.ok (),t)) : t.generations=rt.generations.reload b := by
  have ⟨_,t₁,h₁,h⟩ := seq_eq_ok.1 h
  have hrest : Within SameGenerations (do
      modify fun rt => { rt with sessionIds := rt.sessionIds.observe b.session.id }
      let fenced ← fenceAllInFlight w "runtime restart fenced in-flight phase authority" b.session
      let session := recovered fenced (← get).epoch w.now
      persist w session
      modify fun rt => { rt with
        sessions := rt.sessions.insertIfNew session.id.value session } : Op Unit) := by
    refine Within.bind (fun _ => rfl) fun _ => ?_
    refine (fencePhases_generations w _ _ _).bind fun fenced => Within.get.bind fun rt => ?_
    exact (persist_generations w _).bind fun _ _ => rfl
  have ht := hrest t₁
  rw [h] at ht
  exact (show t.generations=t₁.generations from ht).trans (reloadAuthority_generations h₁)

theorem forEach_recoverSession_generations {bundles : List SessionBundle} {rt t : Runtime}
    (h : forEach (recoverSession w) bundles rt=(.ok (),t)) :
    t.generations=bundles.foldl Generations.reload rt.generations := by
  induction bundles generalizing rt with
  | nil =>
    cases h
    rfl
  | cons b bundles ih =>
    have ⟨_,u,hu,h⟩ := seq_eq_ok.1 h
    rw [ih h,recoverSession_generations w hu]
    rfl

end Reload

/-- The bundles a start recovers its sessions from, in the order it does. -/
def recoveredBundles (options : RuntimeOptions) (file : Bytes) : List SessionBundle :=
  if options.enablePersistence && options.recoverOnLoad then
    (replayed w options file).toList.map (·.2)
  else []

def noGenerations : Generations := ⟨fun _ => none,fun _ => none,fun _ => none,fun _ => none⟩

theorem recoverFrom_generations {previous : DurableState} {rt t : Runtime}
    (h : recoverFrom w previous rt=(.ok (),t)) : t.generations=
      (if rt.options.recoverOnLoad then (replay previous.records).1.toList.map (·.2) else
        []).foldl Generations.reload rt.generations := by
  have ⟨_,_,hc,h⟩ := seq_eq_ok.1 h
  cases (ofExcept_eq_ok.1 hc).2
  have ⟨_,t₁,hm,h⟩ := seq_eq_ok.1 h
  have ⟨_,t₂,hr,h⟩ := seq_eq_ok.1 h
  have ⟨_,_,hg,h⟩ := seq_eq_ok.1 h
  cases hg
  have hsame : t₂.generations=rt.generations ∧ t₂.options=rt.options := by
    cases hm
    unfold recordEpoch at hr
    split at hr
    · cases hr
      exact ⟨rfl,rfl⟩
    · split at hr
      · cases hr
        exact ⟨rfl,rfl⟩
      · cases hr
  rw [hsame.2] at h
  split at h
  · next ho =>
    rw [if_pos ho]
    have ⟨_,t₃,hd,h⟩ := seq_eq_ok.1 h
    have ⟨_,t₄,hf,h⟩ := seq_eq_ok.1 h
    have hg : t₄.generations=((replay previous.records).1.toList.map (·.2)).foldl
        Generations.reload t₃.generations := forEach_recoverSession_generations w hf
    have h₃ : t₃.generations=t₂.generations := by
      cases hd
      rfl
    rw [h₃,hsame.1] at hg
    rw [← hg]
    split at h
    · cases h
      rfl
    · have ⟨_,t₅,he,h⟩ := seq_eq_ok.1 h
      cases h
      cases he
      rfl
  · next ho =>
    rw [if_neg ho]
    cases h
    exact hsame.1

theorem create_generations {options : RuntimeOptions} {adapters : List Adapter} {file : Bytes}
    {rt : Runtime} (h : create w options adapters file=(.ok (),rt)) :
    rt.generations=(recoveredBundles w options file).foldl Generations.reload noGenerations := by
  have empty (rt : Runtime) (htc : rt.toolchains={}) (htg : rt.targets={})
      (hen : rt.environments={}) (hpo : rt.policies={}) : rt.generations=noGenerations := by
    simp only [generations,noGenerations,htc,htg,hen,hpo]
    simp [ToolchainRegistry.find,SpecRegistry.find]
  unfold create at h
  unfold recoveredBundles
  dsimp only at h
  split at h
  · cases h
  · split at h
    · next hp =>
      split at h
      · cases h
      · next store hopen =>
        rw [recoverFrom_generations w h,empty _ rfl rfl rfl rfl,replayed,hopen,hp,Bool.true_and]
    · next hp =>
      cases h
      have hp : options.enablePersistence=false := by simpa using hp
      rw [empty _ rfl rfl rfl rfl,hp]
      rfl

theorem foldl_reload_apply (bundles : List SessionBundle) (g : Generations) :
    bundles.foldl Generations.reload g=
      { toolchain := fun id => bundles.foldl (toolchainsReloaded.reload id) (g.toolchain id)
        target := fun id => bundles.foldl (targetsReloaded.reload id) (g.target id)
        environment := fun id => bundles.foldl (environmentsReloaded.reload id) (g.environment id)
        policy := fun id => bundles.foldl (policiesReloaded.reload id) (g.policy id) } := by
  induction bundles generalizing g with
  | nil => rfl
  | cons b bundles ih =>
    rw [List.foldl_cons,ih]
    rfl

/-- The generations of every kind survive the start. -/
structure GenerationsSurvive (bundles : List SessionBundle) (rt : Runtime) : Prop where
  toolchains : toolchainsReloaded.Survive bundles rt.generations.toolchain
  targets : targetsReloaded.Survive bundles rt.generations.target
  environments : environmentsReloaded.Survive bundles rt.generations.environment
  policies : policiesReloaded.Survive bundles rt.generations.policy

/-- After a start on any journal the generations survive exactly when no bundle of it records a
revised target, environment or policy, and of each toolchain the bundle of the last session that
names it records the highest generation. -/
theorem survive_iff_unrevised {options : RuntimeOptions} {adapters : List Adapter} {file : Bytes}
    {rt : Runtime} (h : create w options adapters file=(.ok (),rt)) :
    GenerationsSurvive (recoveredBundles w options file) rt ↔
      toolchainsReloaded.LastHighest (recoveredBundles w options file) ∧
      targetsReloaded.Unrevised (recoveredBundles w options file) ∧
      environmentsReloaded.Unrevised (recoveredBundles w options file) ∧
      policiesReloaded.Unrevised (recoveredBundles w options file) := by
  have hg := create_generations w h
  rw [foldl_reload_apply] at hg
  generalize recoveredBundles w options file=bundles at hg ⊢
  have htool : toolchainsReloaded.Faithful := by
    intro g
    by_cases hp : g.present
    · exact .inr ⟨hp,if_pos hp⟩
    · exact .inl (if_neg hp)
  have ht := toolchainsReloaded.survive_iff htool bundles
  have hta := (targetsReloaded.survive_iff (fun _ => .inl rfl) bundles).trans
    (targetsReloaded.lastHighest_iff_unrevised (fun _ => rfl) bundles)
  have hen := (environmentsReloaded.survive_iff (fun _ => .inl rfl) bundles).trans
    (environmentsReloaded.lastHighest_iff_unrevised (fun _ => rfl) bundles)
  have hpo := (policiesReloaded.survive_iff (fun _ => .inl rfl) bundles).trans
    (policiesReloaded.lastHighest_iff_unrevised (fun _ => rfl) bundles)
  rw [← ht,← hta,← hen,← hpo]
  constructor
  · intro hs
    have ⟨h₁,h₂,h₃,h₄⟩ := hs
    rw [hg] at h₁ h₂ h₃ h₄
    exact ⟨h₁,h₂,h₃,h₄⟩
  · rintro ⟨h₁,h₂,h₃,h₄⟩
    refine ⟨?_,?_,?_,?_⟩ <;> rw [hg]
    · exact h₁
    · exact h₂
    · exact h₃
    · exact h₄

end Runtime

namespace Sample

/-- A policy revised before a session bound to it was created. -/
def revised : System := (System.boot durable [adapter] [] world).run
  [.call (.internPolicy { maxRetriesPerPhase := 7 }) world,.call (.revisePolicy ⟨1⟩ {}) world,
    .call (.discoverToolchain family) world,.call (.createSession request) world]

/-- Two sessions with an upgrade of their toolchain in between. -/
def upgraded : System := persisted.run
  [.call (.applyToolchainObservation { toolchain with id := ⟨1⟩,version := ascii "2" }) world,
    .call (.createSession request) world]

def reopened : Result Unit × Runtime := Runtime.create world durable [adapter] revised.journal

end Sample

namespace Runtime

theorem eq_ok_of_toBool {σ : Type} {x : Result Unit × σ} (h : x.1.toBool=true) :
    x=(.ok (),x.2) := by
  have ⟨r,t⟩ := x
  cases r with
  | error => cases h
  | ok => rfl

/-- What the start finds in the two journals, and what it makes of the second. -/
theorem samples_reopened :
    ((create Sample.world Sample.durable [Sample.adapter] Sample.upgraded.journal).1.toBool=true ∧
      (recoveredBundles Sample.world Sample.durable Sample.upgraded.journal).map (fun b =>
        (toolchainsReloaded.recorded b,policiesReloaded.recorded b))=
        [(some ⟨⟨1⟩,⟨1⟩⟩,some ⟨⟨1⟩,⟨1⟩⟩),(some ⟨⟨1⟩,⟨2⟩⟩,some ⟨⟨1⟩,⟨1⟩⟩)] ∧
      toolchainsReloaded.LastHighest
        (recoveredBundles Sample.world Sample.durable Sample.upgraded.journal) ∧
      targetsReloaded.Unrevised
        (recoveredBundles Sample.world Sample.durable Sample.upgraded.journal) ∧
      environmentsReloaded.Unrevised
        (recoveredBundles Sample.world Sample.durable Sample.upgraded.journal) ∧
      policiesReloaded.Unrevised
        (recoveredBundles Sample.world Sample.durable Sample.upgraded.journal)) ∧
    Sample.reopened.1.toBool=true ∧
      (recoveredBundles Sample.world Sample.durable Sample.revised.journal).map
        policiesReloaded.recorded=[some ⟨⟨1⟩,⟨2⟩⟩] ∧
      Sample.reopened.2.generations.policy ⟨1⟩=some ⟨1⟩ := by decide +kernel

/-- Two sessions on one target, environment and policy, the first bound to the toolchain before its
upgrade and the second after it: the start finds both records and every generation survives. -/
theorem survive_of_upgraded :
    (create Sample.world Sample.durable [Sample.adapter] Sample.upgraded.journal).1.toBool=true ∧
    (recoveredBundles Sample.world Sample.durable Sample.upgraded.journal).map (fun b =>
      (toolchainsReloaded.recorded b,policiesReloaded.recorded b))=
      [(some ⟨⟨1⟩,⟨1⟩⟩,some ⟨⟨1⟩,⟨1⟩⟩),(some ⟨⟨1⟩,⟨2⟩⟩,some ⟨⟨1⟩,⟨1⟩⟩)] ∧
    GenerationsSurvive (recoveredBundles Sample.world Sample.durable Sample.upgraded.journal)
      (create Sample.world Sample.durable [Sample.adapter] Sample.upgraded.journal).2 := by
  obtain ⟨⟨hok,hrecorded,hcondition⟩,_⟩ := samples_reopened
  refine ⟨hok,hrecorded,?_⟩
  exact (survive_iff_unrevised Sample.world (eq_ok_of_toBool hok)).2 hcondition

/-- The policy comes back at its initial generation: the session, current before the restart, is
stale after it. -/
theorem not_survive_of_revised : Sample.reopened.1.toBool=true ∧
    ¬GenerationsSurvive (recoveredBundles Sample.world Sample.durable Sample.revised.journal)
      Sample.reopened.2 := by
  obtain ⟨_,hok,hb,hg⟩ := samples_reopened
  generalize recoveredBundles Sample.world Sample.durable Sample.revised.journal=bundles at hb ⊢
  generalize Sample.reopened=opened at hok hg ⊢
  have ⟨b,hbs,hr⟩ := List.map_eq_singleton_iff.1 hb
  refine ⟨hok,fun hs => ?_⟩
  have hm : b ∈ bundles := hbs ▸ List.mem_singleton.2 rfl
  have ⟨g,hg',hle⟩ := hs.policies.kept b hm _ hr
  have he : some (⟨1⟩ : Generation .policy)=some g := hg.symm.trans hg'
  rw [← Option.some.inj he] at hle
  exact absurd hle (by decide)

end Runtime

end CompilerFabric
