import CompilerFabric.Runtime.Moves

namespace CompilerFabric

open Base Base.Action

/-- What holds of every bundle that is decoded holds of all that a replay leaves. -/
theorem foldl_replayRecord {P : UInt64 → SessionBundle → Prop} {records : List JournalRecord}
    {s : Table SessionBundle × Nat}
    (hP : ∀ bytes b,decodeSessionBundle bytes=.ok b → P b.session.id.value b)
    (h : ∀ (i : UInt64) b,s.1[i]?=some b → P i b) (i : UInt64) {b : SessionBundle}
    (hb : (records.foldl replayRecord s).1[i]?=some b) : P i b := by
  induction records generalizing s with
  | nil => exact h i b hb
  | cons record records ih =>
    refine ih (fun j b hb => ?_) hb
    unfold replayRecord at hb
    split at hb
    · exact h j b hb
    · split at hb
      · exact h j b hb
      · next hd =>
        rw [Std.ExtTreeMap.getElem?_insert] at hb
        split at hb
        · next hk =>
          cases hb
          rw [← Std.LawfulEqCmp.eq_of_compare hk]
          exact hP _ _ hd
        · exact h j b hb

theorem replay_decoded {P : UInt64 → SessionBundle → Prop} {records : List JournalRecord}
    (hP : ∀ bytes b,decodeSessionBundle bytes=.ok b → P b.session.id.value b) {i : UInt64}
    {b : SessionBundle} (h : (replay records).1[i]?=some b) : P i b :=
  foldl_replayRecord hP (fun _ _ h => by simp at h) i h

theorem replay_key {records : List JournalRecord} {i : UInt64} {b : SessionBundle}
    (h : (replay records).1[i]?=some b) : b.session.id.value=i :=
  replay_decoded (P := fun i b => b.session.id.value=i) (fun _ _ _ => rfl) h

/-- The state a session from the journal is given. -/
def restarting (a b : SessionState) : Prop :=
  b=if a=.committed ∨ a=.retired then a else .recovering

namespace Runtime

variable (w : World)

/-- What a start makes of a session it finds in its journal. -/
abbrev Restarts : CompilerSession → CompilerSession → Prop :=
  CompilerSession.Evolves restarting PhaseRecord.Calm

section Reload

theorem reload_apart {α : Type} (bytes : Bytes) (decode : Bytes → Result α)
    {register : α → Op Unit} (h : ∀ a,Within Apart (register a)) :
    Within Apart (reload bytes decode register) := by
  unfold reload
  split
  · exact .pure _
  · exact (Within.ofExcept _).bind h

theorem onToolchains_apart {α : Type} (f : ToolchainRegistry → Result (α × ToolchainRegistry)) :
    Within Apart (onToolchains f) := by
  intro rt
  unfold onToolchains
  split
  · exact Std.Refl.refl rt
  · exact .note rfl rfl rfl

theorem onTargets_apart (f : TargetRegistry → Result (Ref .target × TargetRegistry)) :
    Within Apart (onTargets f) := by
  intro rt
  unfold onTargets
  split
  · exact Std.Refl.refl rt
  · exact .note rfl rfl rfl

theorem onEnvironments_apart
    (f : EnvironmentRegistry → Result (Ref .environment × EnvironmentRegistry)) :
    Within Apart (onEnvironments f) := by
  intro rt
  unfold onEnvironments
  split
  · exact Std.Refl.refl rt
  · exact .note rfl rfl rfl

theorem onPolicies_apart (f : PolicyRegistry → Result (Ref .policy × PolicyRegistry)) :
    Within Apart (onPolicies f) := by
  intro rt
  unfold onPolicies
  split
  · exact Std.Refl.refl rt
  · exact .note rfl rfl rfl

theorem onSources_apart (f : SourceRegistry → Result (Ref .source × SourceRegistry)) :
    Within Apart (onSources f) := by
  intro rt
  unfold onSources
  split
  · exact Std.Refl.refl rt
  · exact .note rfl rfl rfl

theorem reloadArtifact_apart (artifact : IntermediateArtifact) :
    Within Apart (reloadArtifact artifact) := by
  intro rt
  unfold reloadArtifact
  split
  · exact Std.Refl.refl rt
  · exact .note rfl rfl rfl

theorem reloadDiagnostics_apart (set : DiagnosticSet) : Within Apart (reloadDiagnostics set) := by
  intro rt
  unfold reloadDiagnostics
  split
  · exact Std.Refl.refl rt
  · exact .note rfl rfl rfl

theorem reloadAuthority_apart (bundle : SessionBundle) : Within Apart (reloadAuthority bundle) := by
  refine (reload_apart _ _ fun _ => (onToolchains_apart _).bind fun _ => .pure _).bind fun _ => ?_
  refine (reload_apart _ _ fun _ => (onTargets_apart _).bind fun _ => .pure _).bind fun _ => ?_
  refine (reload_apart _ _ fun _ => (onEnvironments_apart _).bind fun _ => .pure _).bind fun _ => ?_
  refine (reload_apart _ _ fun _ => (onPolicies_apart _).bind fun _ => .pure _).bind fun _ => ?_
  refine (Within.forEach (fun _ => reload_apart _ _ fun _ =>
    (onSources_apart _).bind fun _ => .pure _) _).bind fun _ => ?_
  refine (Within.forEach reloadArtifact_apart _).bind fun _ => ?_
  refine (Within.forEach (fun _ => reload_apart _ _ fun _ _ => .note rfl rfl rfl) _).bind fun _ => ?_
  exact Within.forEach reloadDiagnostics_apart _

end Reload

theorem recovered_restarts {σ : SessionState → SessionState → Prop} {s fenced : CompilerSession}
    (hσ : ∀ a b,σ a b → a=b) (h : CompilerSession.Evolves σ PhaseRecord.Calm s fenced)
    (epoch now : UInt64) : Restarts s (recovered fenced epoch now) := by
  have hs := hσ _ _ h.state
  unfold recovered
  dsimp only
  split
  · next hc =>
    refine ⟨h.binding,?_,h.phases⟩
    rw [restarting,hs,if_neg]
    simpa using hc
  · next hc =>
    refine ⟨h.binding,?_,h.phases⟩
    rw [restarting,hs,if_pos]
    by_contra hn
    exact hc (by simpa using hn)

/-- One recovered session: it is registered, or the start is refused without it. -/
theorem recoverSession_spec {bundle : SessionBundle} {rt t : Runtime} {result : Result Unit}
    (h : recoverSession w bundle rt=(result,t)) : Ledger rt t ∧
      (((∃ e,result=.error e) ∧ t.sessions=rt.sessions) ∨
      ∃ session,session.id=bundle.session.id ∧ Restarts bundle.session session ∧ result=.ok () ∧
        t.sessions=rt.sessions.insertIfNew session.id.value session) := by
  have hr := reloadAuthority_apart bundle rt
  rcases seq_eq h with ⟨e,hx,he⟩ | ⟨_,t₁,hx,h⟩
  · rw [hx] at hr
    exact ⟨hr.toLedger,.inl ⟨⟨e,he⟩,hr.sessions⟩⟩
  rw [hx] at hr
  rcases seq_eq h with ⟨e,hx,_⟩ | ⟨_,t₂,hx,h⟩
  · cases hx
  have hr : Apart rt t₂ := by
    cases hx
    refine IsTrans.trans _ t₁ _ hr ?_
    exact .note rfl rfl rfl
  have hfence := (fenceAllInFlight_aside w "runtime restart fenced in-flight phase authority"
    bundle.session t₂).toApart
  rcases seq_eq h with ⟨e,hx,he⟩ | ⟨fenced,t₃,hf,h⟩
  · rw [hx] at hfence
    have hr := IsTrans.trans _ _ _ hr hfence
    exact ⟨hr.toLedger,.inl ⟨⟨e,he⟩,hr.sessions⟩⟩
  rw [hf] at hfence
  have hr := IsTrans.trans _ _ _ hr hfence
  rcases seq_eq h with ⟨e,hx,_⟩ | ⟨_,_,hx,h⟩
  · cases hx
  cases hx
  have hrec := recovered_restarts (fun _ _ h => h) (fenceAllInFlight_evolves (σ := Eq) w _ hf)
    t₃.epoch w.now
  have hpersist := (persist_aside w (recovered fenced t₃.epoch w.now) t₃).toApart
  rcases seq_eq h with ⟨e,hx,he⟩ | ⟨_,t₄,hx,h⟩
  · rw [hx] at hpersist
    have hr := IsTrans.trans _ _ _ hr hpersist
    exact ⟨hr.toLedger,.inl ⟨⟨e,he⟩,hr.sessions⟩⟩
  rw [hx] at hpersist
  have hr := IsTrans.trans _ _ _ hr hpersist
  cases h
  refine ⟨⟨hr.failures,IsTrans.trans _ t₄ _ hr.mints (.same rfl)⟩,
    .inr ⟨_,congrArg (·.1) hrec.binding,hrec,rfl,?_⟩⟩
  rw [← hr.sessions]

/-- The sessions of a start come from its journal. -/
def FromBundles (bundles : List SessionBundle) (rt : Runtime) : Prop :=
  ∀ (i : UInt64) s,rt.sessions[i]?=some s →
    ∃ b ∈ bundles,b.session.id.value=i ∧ Restarts b.session s

theorem recoverSession_from {bundle : SessionBundle} {bundles : List SessionBundle} {rt : Runtime}
    (hb : bundle ∈ bundles) (h : FromBundles bundles rt) :
    FromBundles bundles (recoverSession w bundle rt).2 := by
  cases hr : recoverSession w bundle rt with
  | mk result t =>
    rcases (recoverSession_spec w hr).2 with ⟨_,hs⟩ | ⟨session,hid,hrec,_,hs⟩
    · intro i s hi
      exact h i s (hs ▸ hi)
    · intro i s hi
      dsimp only at hi
      rw [hs,Std.ExtTreeMap.getElem?_insertIfNew] at hi
      split at hi
      · next hk =>
        cases hi
        refine ⟨bundle,hb,?_,hrec⟩
        rw [← hid]
        exact Std.LawfulEqCmp.eq_of_compare hk.1
      · exact h i s hi

theorem forEach_recoverSession {bundles rest : List SessionBundle} {rt : Runtime}
    (hsub : ∀ b ∈ rest,b ∈ bundles) (h : FromBundles bundles rt) :
    FromBundles bundles (forEach (recoverSession w) rest rt).2 ∧
      Ledger rt (forEach (recoverSession w) rest rt).2 := by
  induction rest generalizing rt with
  | nil => exact ⟨h,Std.Refl.refl rt⟩
  | cons bundle rest ih =>
    have hfrom := recoverSession_from w (hsub bundle List.mem_cons_self) h
    cases hr : recoverSession w bundle rt with
    | mk result t =>
      have hl := (recoverSession_spec w hr).1
      rw [hr] at hfrom
      cases result with
      | error e =>
        rw [forEach,bind_error hr]
        exact ⟨hfrom,hl⟩
      | ok _ =>
        rw [forEach,bind_ok hr]
        have ⟨hf,hl'⟩ := ih (fun b hb => hsub b (List.mem_cons_of_mem _ hb)) hfrom
        exact ⟨hf,IsTrans.trans _ _ _ hl hl'⟩

/-- The sessions registered all come from the bundles, each at its own identity. -/
def FromTable (latest : Table SessionBundle) (rt : Runtime) : Prop :=
  ∀ (i : UInt64) s,rt.sessions[i]?=some s → ∃ b,latest[i]?=some b ∧ Restarts b.session s

theorem FromTable.of_sessions {latest : Table SessionBundle} {rt t : Runtime}
    (h : FromTable latest rt) (hs : t.sessions=rt.sessions) : FromTable latest t := by
  intro i s hi
  exact h i s (hs ▸ hi)

theorem FromBundles.table {latest : Table SessionBundle} {rt : Runtime}
    (hkey : ∀ (i : UInt64) b,latest[i]?=some b → b.session.id.value=i)
    (h : FromBundles (latest.toList.map (·.2)) rt) : FromTable latest rt := by
  intro i s hi
  have ⟨b,hb,hid,hrec⟩ := h i s hi
  have ⟨⟨k,b'⟩,hm,he⟩ := List.mem_map.1 hb
  have he : b'=b := he
  subst he
  have hget := Std.ExtTreeMap.mem_toList_iff_getElem?_eq_some.1 hm
  have hk := hkey k b' hget
  rw [hid] at hk
  subst hk
  exact ⟨b',hget,hrec⟩

theorem recoverSessions_spec (records : List JournalRecord) {rt : Runtime} (h : rt.sessions=∅) :
    FromTable (replay records).1 (recoverSessions w records rt).2 ∧
      Ledger rt (recoverSessions w records rt).2 := by
  let start : Runtime := { rt with persistedDefects := (replay records).2 }
  let bundles := (replay records).1.toList.map (·.2)
  have hstart : FromBundles bundles start := by
    intro i s hi
    have hi : rt.sessions[i]?=some s := hi
    rw [h] at hi
    simp at hi
  have ⟨hfrom,hl⟩ := forEach_recoverSession w (fun _ hb => hb) hstart
  have hfrom := hfrom.table fun _ _ => replay_key
  have hl : Ledger rt (forEach (recoverSession w) bundles start).2 :=
    IsTrans.trans _ start _ ⟨Nat.le_refl _,.same rfl⟩ hl
  have he : recoverSessions w records rt=
      (forEach (recoverSession w) bundles >>= fun _ => if (replay records).1.isEmpty then pure ()
        else do
          let _ ← recordEvidence) start := rfl
  rw [he]
  cases hr : forEach (recoverSession w) bundles start with
  | mk result t =>
    rw [hr] at hfrom hl
    cases result with
    | error e =>
      rw [bind_error hr]
      exact ⟨hfrom,hl⟩
    | ok _ =>
      rw [bind_ok hr]
      split
      · exact ⟨hfrom,hl⟩
      · exact ⟨hfrom.of_sessions rfl,IsTrans.trans _ t _ hl ⟨Nat.le_refl _,.same rfl⟩⟩

/-- The bundles a start finds in a journal, by session identity. -/
def replayed (options : RuntimeOptions) (file : Bytes) : Table SessionBundle :=
  match PersistenceStore.openStore (persistenceOptions options) file w.disk w.wall with
  | (.ok (),store) => (replay store.load.records).1
  | (.error _,_) => ∅

theorem recordEpoch_apart (epoch : UInt64) : Within Apart (recordEpoch w epoch) := by
  intro rt
  unfold recordEpoch
  split
  · exact Std.Refl.refl rt
  · split <;> exact .note rfl rfl rfl

theorem recoverFrom_spec (previous : DurableState) {rt : Runtime} (h : rt.sessions=∅) :
    FromTable (replay previous.records).1 (recoverFrom w previous rt).2 ∧
      Ledger rt (recoverFrom w previous rt).2 := by
  have none {t : Runtime} (ht : t.sessions=rt.sessions) :
      FromTable (replay previous.records).1 t := by
    intro i s hi
    rw [ht,h] at hi
    simp at hi
  let sound (t : Runtime) : Prop := FromTable (replay previous.records).1 t ∧ Ledger rt t
  refine bind_state (Q := sound) ?_ ?_
  · intro e t ht
    cases (congrArg Prod.snd ht : rt=t)
    exact ⟨none rfl,Std.Refl.refl rt⟩
  intro _ t ht
  cases (ofExcept_eq_ok.1 ht).2
  refine bind_state (Q := sound) (fun _ _ h => nomatch h) ?_
  rintro _ _ ⟨⟩
  have hepoch := IsTrans.trans _ _ _ (Apart.note rfl rfl rfl : Apart rt { rt with
    epoch := previous.runtimeEpoch+1 }) (recordEpoch_apart w (previous.runtimeEpoch+1) _)
  refine bind_state (Q := sound) ?_ ?_
  · intro e t ht
    rw [ht] at hepoch
    exact ⟨none hepoch.sessions,hepoch.toLedger⟩
  intro _ t ht
  rw [ht] at hepoch
  refine bind_state (Q := sound) (fun _ _ h => nomatch h) ?_
  rintro _ _ ⟨⟩
  split
  · have ⟨hf,hl⟩ := recoverSessions_spec w previous.records (hepoch.sessions.trans h)
    exact ⟨hf,IsTrans.trans _ _ _ hepoch.toLedger hl⟩
  · exact ⟨none hepoch.sessions,hepoch.toLedger⟩

theorem minted_fresh {rt : Runtime} (hi : rt.issued=[]) (hp : rt.phaseIds={})
    (hv : rt.invocationIds={}) (ha : rt.attemptIds={}) (hl : rt.leases={}) (hc : rt.commitIds={})
    (hf : rt.finalIds={}) : rt.Minted := by
  have start (tag : IdTag) : NumbersOff [] tag 1 := ⟨rfl,rfl⟩
  refine ⟨?_,?_,?_,?_,?_,?_⟩
  · rw [hi,hp]
    exact start _
  · rw [hi,hv]
    exact start _
  · rw [hi,ha]
    exact start _
  · rw [hi,hl]
    exact start _
  · rw [hi,hc]
    exact start _
  · rw [hi,hf]
    exact start _

/-- A started process knows the sessions its journal replays, as a restart leaves them. -/
theorem create_spec (options : RuntimeOptions) (adapters : List Adapter) (file : Bytes) :
    FromTable (replayed w options file) (create w options adapters file).2 ∧
      (create w options adapters file).2.Minted := by
  have none {t : Runtime} (ht : t.sessions=∅) : FromTable (replayed w options file) t := by
    intro i s hi
    rw [ht] at hi
    simp at hi
  unfold create
  dsimp only
  split
  · exact ⟨none rfl,minted_fresh rfl rfl rfl rfl rfl rfl rfl⟩
  · split
    · split
      · exact ⟨none rfl,minted_fresh rfl rfl rfl rfl rfl rfl rfl⟩
      · next store hopen =>
        let rt : Runtime := { options,adapters,persistence := some store }
        have ⟨hf,hl⟩ := recoverFrom_spec w store.load (rfl : rt.sessions=∅)
        refine ⟨?_,hl.mints (minted_fresh rfl rfl rfl rfl rfl rfl rfl)⟩
        rw [replayed,hopen]
        exact hf
    · exact ⟨none rfl,minted_fresh rfl rfl rfl rfl rfl rfl rfl⟩

end Runtime

end CompilerFabric
