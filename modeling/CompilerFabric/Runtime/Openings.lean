import CompilerFabric.Runtime.Ownership
import CompilerFabric.Law.AtMostOnce

namespace CompilerFabric

open Base Base.Action

/-- The identities a new plan is given are drawn one after the other. -/
theorem remapIds_spec (nodes : List PhaseNode) (a : IdAllocator .phase) :
    a.counter.toNat ≤ (remapIds nodes a).2.counter.toNat ∧ ∀ node ∈ nodes,
      ∃ id,(remapIds nodes a).1.lookup node.id=some id ∧ a.counter.toNat ≤ id.value.toNat ∧
        ((remapIds nodes a).2.spent=false → id.value.toNat<(remapIds nodes a).2.counter.toNat) := by
  induction nodes generalizing a with
  | nil => exact ⟨Nat.le_refl _,fun _ h => nomatch h⟩
  | cons first rest ih =>
    obtain ⟨hle,hrest⟩ := ih a.next.2
    refine ⟨Nat.le_trans a.le_next hle,?_⟩
    intro node hn
    have hl : (remapIds (first::rest) a).1.lookup node.id=
        if node.id=first.id then some a.next.1 else (remapIds rest a.next.2).1.lookup node.id := by
      simp only [remapIds,List.lookup_cons]
      by_cases he : node.id=first.id
      · simp [he]
      · have hb : (node.id==first.id)=false := by simpa using he
        rw [hb,if_neg he]
    rw [hl]
    by_cases he : node.id=first.id
    · refine ⟨a.next.1,if_pos he,a.le_drawn,?_⟩
      intro hu
      exact Nat.lt_of_lt_of_le (IdAllocator.drawn_lt (IdAllocator.unspent_of_le hle hu)) hle
    · rw [if_neg he]
      have hin : node ∈ rest := by
        rcases List.mem_cons.1 hn with rfl | h
        · exact absurd rfl he
        · exact h
      obtain ⟨id,hid,hge,hlt⟩ := hrest node hin
      exact ⟨id,hid,Nat.le_trans a.le_next hge,hlt⟩

namespace Runtime

variable (w : World) (sid : CompilerSessionId) (pid : CompilerPhaseId)

/-- Nobody comes to hold anything else. -/
def SameEstate (rt t : Runtime) : Prop := t.estate=rt.estate

instance : IsPreorder Runtime SameEstate where
  refl _ := rfl
  trans _ _ _ h h' := Eq.trans h' h

theorem sameEstate_of_tends {who : CompilerSessionId} {α : Type} {x : Op α}
    (h : Within (Tends who) x) : Within SameEstate x :=
  h.mono fun _ _ h => h.estate

theorem estate_eq {α : Type} {x : Op α} {rt t : Runtime} {result : Result α}
    (hx : Within SameEstate x) (h : x rt=(result,t)) : t.estate=rt.estate := by
  have hs : SameEstate rt (x rt).2 := hx rt
  rw [h] at hs
  exact hs

theorem artifacts_estate {rt : Runtime} {artifacts : ArtifactRegistry}
    (h : rt.artifacts.Quiet artifacts) : SameEstate rt { rt with artifacts } := by
  show Runtime.estate _=_
  rw [estate,h.byPhase,h.allocator]
  rfl

theorem revokeLease_estate (id : LeaseId) (reason : Bytes) :
    Within SameEstate (revokeLease id reason) := fun rt => rt.revoke_estate id reason

theorem revokeOutputs_estate (phase : CompilerPhaseId) (generation : CompilerPhaseGeneration)
    (detail : Bytes) : Within SameEstate (revokeOutputs phase generation detail) :=
  fun rt => artifacts_estate (rt.artifacts.revokePhaseOutputs_quiet phase generation detail)

theorem revalidateArtifact_estate (reference : Ref .intermediate) :
    Within SameEstate (revalidateArtifact w reference) := by
  intro rt
  have h := rt.artifacts.revalidate_quiet reference.id
    ((w.artifactFiles.lookup reference.id).getD .missing)
  unfold revalidateArtifact
  dsimp only
  split
  · next he =>
    rw [he] at h
    exact artifacts_estate h
  · next he =>
    rw [he] at h
    exact artifacts_estate h

theorem persist_estate (session : CompilerSession) : Within SameEstate (persist w session) :=
  sameEstate_of_tends (persist_tends w session : Within (Tends session.id) _)

theorem persistSession_estate : Within SameEstate (persistSession w sid) :=
  sameEstate_of_tends (persistSession_tends w sid : Within (Tends sid) _)

theorem write_estate {f : CompilerSession → CompilerSession} (h : ∀ s,(f s).holding=s.holding) :
    Within SameEstate (modify (·.modifySession sid f) : Op Unit) :=
  sameEstate_of_tends (write_tends sid h)

theorem recordEvidence_estate : Within SameEstate recordEvidence := fun _ => rfl

theorem endRecovery_estate (plan : RecoveryPlan) : Within SameEstate (endRecovery w sid plan) := by
  refine Within.get.bind fun rt => (Within.ofExcept _).bind fun _ =>
    (Within.forEach (revalidateArtifact_estate w) _).bind fun _ => ?_
  refine Within.bind (write_estate sid fun s => s.afterRecovery_holding plan w.now) fun _ => ?_
  exact (persistSession_estate w sid).bind fun _ => recordEvidence_estate.bind fun _ => .pure _

theorem failSession_estate (detail : Bytes) : Within SameEstate (failSession w sid detail) :=
  Within.bind (write_estate sid fun _ => rfl) fun _ => persistSession_estate w sid

theorem failIfActive_estate (detail : Bytes) : Within SameEstate (failIfActive w sid detail) := by
  refine Within.get.bind fun rt => ?_
  split
  · exact (failSession_estate w sid detail).attempt.bind fun _ => .pure _
  · exact .pure _

theorem beginRound_estate : Within SameEstate (beginRound w sid) := by
  refine Within.get.bind fun rt => (Within.ofExcept _).bind fun _ => ?_
  refine Within.bind (write_estate sid fun _ => rfl) fun _ => ?_
  refine Within.get.bind fun rt => (Within.ofExcept _).bind fun session => ?_
  split
  · exact .pure _
  · split
    · exact .pure _
    · exact (failSession_estate w sid _).bind fun _ => .pure _

section Fence

variable {session fenced : CompilerSession} {rt t : Runtime}

theorem fencePhase_estate (reason : Bytes) (session : CompilerSession) :
    Within SameEstate (fencePhase w reason session pid) := by
  unfold fencePhase
  split
  · exact .pure _
  · split
    · exact .pure _
    · exact (revokeOutputs_estate _ _ _).bind fun _ =>
        (revokeLease_estate _ _).bind fun _ => .pure _

theorem fencePhases_estate (reason : Bytes) (order : List CompilerPhaseId)
    (session : CompilerSession) : Within SameEstate (fencePhases w reason order session) := by
  induction order generalizing session with
  | nil => exact .pure _
  | cons id rest ih => exact (fencePhase_estate w id reason session).bind fun s => ih s

theorem fencePhase_holding (reason : Bytes)
    (h : fencePhase w reason session pid rt=(.ok fenced,t)) : fenced.holding=session.holding := by
  unfold fencePhase at h
  cases hp : session.findPhase pid with
  | none =>
    rw [hp] at h
    cases h
    rfl
  | some phase =>
    rw [hp] at h
    dsimp only at h
    split at h
    · cases h
      rfl
    · cases h
      exact session.modifyPhase_holding pid fun p => (p.fencedInFlight_quiet _ _).holding

theorem fencePhases_holding (reason : Bytes) (order : List CompilerPhaseId)
    (h : fencePhases w reason order session rt=(.ok fenced,t)) : fenced.holding=session.holding := by
  induction order generalizing session rt with
  | nil =>
    cases h
    rfl
  | cons id rest ih =>
    have ⟨s,u,h₁,h₂⟩ := seq_eq_ok.1 h
    exact (ih h₂).trans (fencePhase_holding w id reason h₁)

end Fence

theorem beginShutdown_estate : Within SameEstate (beginShutdown w) := by
  refine Within.get.bind fun rt => ?_
  split
  · exact .pure _
  · refine Within.bind (fun _ => rfl) fun _ => (Within.forEach (fun i => ?_) _).bind fun _ => .pure _
    intro rt
    refine Within.get_at ?_
    cases hs : rt.sessions[i]? with
    | none => exact Std.Refl.refl rt
    | some session =>
      by_cases hc : session.state=.retired ∨ session.state=.committed
      · simp only [hc,if_true]
        exact Std.Refl.refl rt
      · simp only [hc,if_false]
        refine Within.bind_at (fencePhases_estate w _ _ _ rt) fun fenced t ht => ?_
        refine Tends.estate (modifySession_tends fun s hl => ?_)
        cases Aside.live ⟨i⟩ (fenceAllInFlight_aside w _ _) ht hs hl
        exact fencePhases_holding w _ _ ht

theorem endShutdown_estate : Within SameEstate (endShutdown w) := by
  refine Within.get.bind fun rt => ?_
  refine (Within.forEach (fun i => Within.get.bind fun rt => ?_) _).bind fun _ => ?_
  · split
    · exact .pure _
    · split
      · exact .pure _
      · refine Within.bind (write_estate ⟨i⟩ fun s => ?_) fun _ => ?_
        · unfold stopped
          show (ite _ _ _ : CompilerSession).holding=s.holding
          split <;> rfl
        · exact (persistSession_estate w ⟨i⟩).attempt.bind fun _ => .pure _
  · refine Within.bind (.modify fun rt => ?_) fun _ => recordEvidence_estate.bind fun _ => .pure _
    split <;> rfl

theorem onTargets_estate (f : TargetRegistry → Result (Ref .target × TargetRegistry)) :
    Within SameEstate (onTargets f) := by
  intro rt
  unfold onTargets
  split <;> rfl

theorem onEnvironments_estate
    (f : EnvironmentRegistry → Result (Ref .environment × EnvironmentRegistry)) :
    Within SameEstate (onEnvironments f) := by
  intro rt
  unfold onEnvironments
  split <;> rfl

theorem onPolicies_estate (f : PolicyRegistry → Result (Ref .policy × PolicyRegistry)) :
    Within SameEstate (onPolicies f) := by
  intro rt
  unfold onPolicies
  split <;> rfl

theorem onSources_estate (f : SourceRegistry → Result (Ref .source × SourceRegistry)) :
    Within SameEstate (onSources f) := by
  intro rt
  unfold onSources
  split <;> rfl

theorem onToolchains_estate {α : Type} (f : ToolchainRegistry → Result (α × ToolchainRegistry)) :
    Within SameEstate (onToolchains f) := by
  intro rt
  unfold onToolchains
  split <;> rfl

theorem addSources_estate (files : List (Result SourceUnit)) :
    Within SameEstate (addSources files) := by
  induction files with
  | nil => exact .pure _
  | cons file rest ih => exact (onSources_estate _).bind fun _ => ih.bind fun _ => .pure _

theorem moveToolchain_estate
    (f : ToolchainRegistry → Result (ToolchainMutation × ToolchainRegistry)) :
    Within SameEstate (moveToolchain f) := by
  refine (onToolchains_estate f).bind fun mutation => ?_
  split
  · exact recordEvidence_estate.bind fun _ => .pure _
  · exact .pure _

theorem requestedAttempt_estate (request : CompileRequest) :
    Within SameEstate (requestedAttempt request) := by
  unfold requestedAttempt
  split
  · exact .pure _
  · exact fun _ => rfl

/-- Only identities of sessions and phases are drawn. -/
structure Draws (rt t : Runtime) : Prop where
  estate : t.estate={ rt.estate with sessionIds := t.sessionIds,phaseIds := t.phaseIds }
  sessions : rt.sessionIds.counter.toNat ≤ t.sessionIds.counter.toNat
  phases : rt.phaseIds.counter.toNat ≤ t.phaseIds.counter.toNat

theorem SameEstate.draws {rt t : Runtime} (h : SameEstate rt t) : Draws rt t := by
  have hs : t.sessionIds=rt.sessionIds := congrArg Estate.sessionIds h
  have hp : t.phaseIds=rt.phaseIds := congrArg Estate.phaseIds h
  refine ⟨?_,hs ▸ Nat.le_refl _,hp ▸ Nat.le_refl _⟩
  rw [hs,hp]
  exact h

instance : IsPreorder Runtime Draws where
  refl _ := SameEstate.draws rfl
  trans := by
    intro rt t u h h'
    refine ⟨?_,Nat.le_trans h.sessions h'.sessions,Nat.le_trans h.phases h'.phases⟩
    rw [h'.estate,h.estate]

theorem nextPhases_draws (nodes : List PhaseNode) : Within Draws (nextPhases nodes) :=
  fun rt => ⟨rfl,Nat.le_refl _,(remapIds_spec nodes rt.phaseIds).1⟩

theorem nextSession_draws : Within Draws nextSession :=
  fun rt => ⟨rfl,rt.sessionIds.le_next,Nat.le_refl _⟩

theorem sessionParts_draws (request : CompileRequest) : Within Draws (sessionParts w request) := by
  have same {α : Type} {x : Op α} (h : Within SameEstate x) : Within Draws x :=
    h.mono fun _ _ h => SameEstate.draws h
  refine Within.get.bind fun rt => ?_
  refine (Within.ofExcept _).bind fun _ => (Within.ofExcept _).bind fun _ => ?_
  refine (Within.ofExcept _).bind fun _ => (Within.ofExcept _).bind fun adapter => ?_
  refine (Within.ofExcept _).bind fun toolchain => (Within.ofExcept _).bind fun spec => ?_
  refine (same (onTargets_estate _)).bind fun target => ?_
  refine (same (addSources_estate _)).bind fun plain => ?_
  refine (same (addSources_estate _)).bind fun inline_ => (Within.ofExcept _).bind fun _ => ?_
  refine (Within.ofExcept _).bind fun composed => ?_
  refine (same (onEnvironments_estate _)).bind fun environment => ?_
  refine (same (onPolicies_estate _)).bind fun policy => (Within.ofExcept _).bind fun local_ => ?_
  refine (nextPhases_draws _).bind fun remap => (Within.ofExcept _).bind fun plan => ?_
  refine nextSession_draws.bind fun id => (same (requestedAttempt_estate request)).bind fun attempt => ?_
  exact (same (addSources_estate _)).bind fun staged => .pure _

/-- The identities of a new session and of its phases are the ones drawn for it. -/
theorem sessionParts_ok {request : CompileRequest} {rt t : Runtime} {parts : SessionParts}
    (h : sessionParts w request rt=(.ok parts,t)) :
    parts.id=rt.sessionIds.next.1 ∧ t.sessionIds=rt.sessionIds.next.2 ∧
      ∃ nodes,t.phaseIds=(remapIds nodes rt.phaseIds).2 ∧
        parts.plan.nodes=nodes.map (remapNode (remapIds nodes rt.phaseIds).1) := by
  have skip {α : Type} {r : Result α} {s u : Runtime} {a : α}
      (h : (ofExcept r : Op α) s=(.ok a,u)) : u.estate=s.estate := estate_eq (.ofExcept r) h
  have ⟨_,t₀,h₀,h⟩ := seq_eq_ok.1 h
  cases h₀
  have ⟨_,t₁,h₁,h⟩ := seq_eq_ok.1 h
  have ⟨_,t₂,h₂,h⟩ := seq_eq_ok.1 h
  have ⟨_,t₃,h₃,h⟩ := seq_eq_ok.1 h
  have ⟨_,t₄,h₄,h⟩ := seq_eq_ok.1 h
  have ⟨_,t₅,h₅,h⟩ := seq_eq_ok.1 h
  have ⟨_,t₆,h₆,h⟩ := seq_eq_ok.1 h
  have ⟨_,t₇,h₇,h⟩ := seq_eq_ok.1 h
  have ⟨_,t₈,h₈,h⟩ := seq_eq_ok.1 h
  have ⟨_,t₉,h₉,h⟩ := seq_eq_ok.1 h
  have ⟨_,t₁₀,h₁₀,h⟩ := seq_eq_ok.1 h
  have ⟨_,t₁₁,h₁₁,h⟩ := seq_eq_ok.1 h
  have ⟨_,t₁₂,h₁₂,h⟩ := seq_eq_ok.1 h
  have ⟨_,t₁₃,h₁₃,h⟩ := seq_eq_ok.1 h
  have ⟨local_,t₁₄,h₁₄,h⟩ := seq_eq_ok.1 h
  have ⟨remap,t₁₅,h₁₅,h⟩ := seq_eq_ok.1 h
  have ⟨plan,t₁₆,h₁₆,h⟩ := seq_eq_ok.1 h
  have ⟨id,t₁₇,h₁₇,h⟩ := seq_eq_ok.1 h
  have ⟨_,t₁₈,h₁₈,h⟩ := seq_eq_ok.1 h
  have ⟨_,t₁₉,h₁₉,h⟩ := seq_eq_ok.1 h
  have before : t₁₄.estate=rt.estate := calc
    t₁₄.estate=t₁₂.estate := (skip h₁₄).trans (estate_eq (onPolicies_estate _) h₁₃)
    _=t₁₀.estate := (estate_eq (onEnvironments_estate _) h₁₂).trans (skip h₁₁)
    _=t₈.estate := (skip h₁₀).trans (estate_eq (addSources_estate _) h₉)
    _=t₆.estate := (estate_eq (addSources_estate _) h₈).trans (estate_eq (onTargets_estate _) h₇)
    _=t₃.estate := (skip h₆).trans ((skip h₅).trans (skip h₄))
    _=rt.estate := (skip h₃).trans ((skip h₂).trans (skip h₁))
  have hs : t₁₄.sessionIds=rt.sessionIds := congrArg Estate.sessionIds before
  have hp : t₁₄.phaseIds=rt.phaseIds := congrArg Estate.phaseIds before
  have hremap : (remapIds local_.nodes t₁₄.phaseIds).1=remap := Except.ok.inj (congrArg Prod.fst h₁₅)
  have hs₁₅ : t₁₄.sessionIds=t₁₅.sessionIds := congrArg (·.2.sessionIds) h₁₅
  have hp₁₅ : (remapIds local_.nodes t₁₄.phaseIds).2=t₁₅.phaseIds := congrArg (·.2.phaseIds) h₁₅
  have ⟨hplan,he⟩ := ofExcept_eq_ok.1 h₁₆
  have hid : t₁₆.sessionIds.next.1=id := Except.ok.inj (congrArg Prod.fst h₁₇)
  have hs₁₇ : t₁₆.sessionIds.next.2=t₁₇.sessionIds := congrArg (·.2.sessionIds) h₁₇
  have hp₁₇ : t₁₆.phaseIds=t₁₇.phaseIds := congrArg (·.2.phaseIds) h₁₇
  have after : t.estate=t₁₇.estate := by
    have ht : t₁₉=t := congrArg Prod.snd h
    rw [← ht]
    exact (estate_eq (addSources_estate _) h₁₉).trans (estate_eq (requestedAttempt_estate request) h₁₈)
  rw [← he,← hs₁₅,hs] at hid hs₁₇
  rw [← he,← hp₁₅,hp] at hp₁₇
  have hparts := Except.ok.inj (congrArg Prod.fst h)
  refine ⟨?_,(congrArg Estate.sessionIds after).trans hs₁₇.symm,local_.nodes,
    (congrArg Estate.phaseIds after).trans hp₁₇.symm,?_⟩
  · rw [← hparts]
    exact hid.symm
  · rw [← hparts]
    have hb := PlanData.build_nodes (PhasePlan.build_ok.1 hplan)
    rw [← hremap,hp] at hb
    exact hb

/-- What a session looks like to the others when it is inserted. -/
theorem insert_held {rt : Runtime} {k : UInt64} (session : CompilerSession)
    (hn : rt.estate.sessions k=none) :
    { rt with sessions := rt.sessions.insertIfNew k session }.estate={ rt.estate with
      sessions := Function.update rt.estate.sessions k (some session.holding) } := by
  have h := Table.insertIfNew_held rt.sessions (·.holding) k session
  have hn : rt.sessions[k]?.map (·.holding)=none := hn
  rw [hn,Option.isSome_none,if_neg Bool.false_ne_true] at h
  rw [estate,h]
  rfl

theorem Draws.apart {C : List CompilerSessionId} {rt t : Runtime} (h : Draws rt t)
    (ha : rt.estate.Apart C) : t.estate.Apart C := by
  rw [h.estate]
  exact ha.advanced h.sessions h.phases

theorem newSession_fresh {C : List CompilerSessionId} {request : CompileRequest} {rt t : Runtime}
    {parts : SessionParts} {epoch : UInt64} (ha : rt.estate.Apart C)
    (h : sessionParts w request rt=(.ok parts,t)) (hu : t.estate.spent=false) {k : UInt64}
    {q : PhaseHolding} (hq : (newSession request parts epoch w.now).holding.phases k=some q) :
    t.estate.Fresh C q := by
  have ⟨_,_,nodes,hphases,hnodes⟩ := sessionParts_ok w h
  have hd := sessionParts_draws w request rt
  rw [h] at hd
  have ⟨phase,hp,he⟩ := Option.map_eq_some_iff.1 hq
  have ⟨attempt,node,hn,_,hi⟩ := newSession_phase (hp : CompilerSession.findPhase _ ⟨k⟩=some phase)
  subst hi he
  rw [hnodes] at hn
  have ⟨first,hf,hm⟩ := List.mem_map.1 hn
  have ⟨id,hl,hge,hlt⟩ := (remapIds_spec nodes rt.phaseIds).2 first hf
  have hid : node.id=id := by
    rw [← hm]
    show ((remapIds nodes rt.phaseIds).1.lookup first.id).getD {}=id
    rw [hl]
    rfl
  simp only [Estate.spent,Bool.or_eq_false_iff] at hu
  have hup : t.phaseIds.spent=false := hu.1.1.2
  refine ⟨rfl,rfl,?_,?_⟩
  · show node.id.value.toNat<t.phaseIds.counter.toNat
    rw [hphases] at hup ⊢
    rw [hid]
    exact hlt hup
  · intro s hs x hx he
    have hx' : rt.estate.Has s x := by
      rw [hd.estate] at hx
      exact hx
    have hlow := ha.phases s hs x hx'
    have he : x.id=node.id := he
    rw [he,hid] at hlow
    exact absurd hge (Nat.not_le.2 hlow)

/-- A created session shares nothing with the sessions created before it. -/
theorem createSession_apart {C : List CompilerSessionId} {request : CompileRequest} {rt t : Runtime}
    {result : Result (Ref .session)} (ha : rt.estate.Apart C)
    (h : createSession w request rt=(result,t)) (hu : t.estate.spent=false) :
    t.estate.Apart ((result.toOption.map (·.id)).toList++C) := by
  have hd := sessionParts_draws w request rt
  rcases seq_eq h with ⟨e,hx,rfl⟩ | ⟨parts,t₁,hx,h⟩
  · rw [hx] at hd
    exact hd.apart ha
  rw [hx] at hd
  rcases seq_eq h with ⟨e,hg,_⟩ | ⟨_,_,hg,h⟩
  · cases hg
  cases hg
  rcases seq_eq h with ⟨e,hp,rfl⟩ | ⟨_,t₂,hp,h⟩
  · rw [estate_eq (persist_estate w _) hp]
    exact hd.apart ha
  have hpersist := estate_eq (persist_estate w _) hp
  let session := newSession request parts t₁.epoch w.now
  let t₃ : Runtime := { t₂ with sessions := t₂.sessions.insertIfNew session.id.value session }
  have hend : t.estate=t₃.estate ∧ result=.ok ⟨parts.id,.initial⟩ := by
    rcases seq_eq h with ⟨e,hm,_⟩ | ⟨_,_,hm,h⟩
    · cases hm
    cases hm
    rcases seq_eq h with ⟨e,hm,_⟩ | ⟨_,_,hm,h⟩
    · cases hm
    cases hm
    cases h
    exact ⟨rfl,rfl⟩
  obtain ⟨hid,hsids,_⟩ := sessionParts_ok w hx
  -- the allocator stands above everything registered
  have hnew : t₂.estate.sessions parts.id.value=none := by
    rw [hpersist,hd.estate]
    show rt.estate.sessions parts.id.value=none
    cases hs : rt.estate.sessions parts.id.value with
    | none => rfl
    | some g =>
      have hb := ha.below _ g hs
      rw [hid] at hb
      exact absurd rt.sessionIds.le_drawn (Nat.not_le.2 hb)
  have hheld : t₃.estate=_ := insert_held session (hnew : t₂.estate.sessions session.id.value=none)
  rw [hend.1] at hu ⊢
  have hu₁ : t₁.estate.spent=false := by
    rw [hheld,hpersist] at hu
    exact hu
  have hbelow : parts.id.value.toNat<t₂.estate.sessionIds.counter.toNat := by
    simp only [Estate.spent,Bool.or_eq_false_iff] at hu₁
    have hs : t₁.sessionIds.spent=false := hu₁.1.1.1
    rw [hpersist]
    show parts.id.value.toNat<t₁.sessionIds.counter.toNat
    rw [hsids] at hs ⊢
    rw [hid]
    exact IdAllocator.drawn_lt hs
  have ha₂ : t₂.estate.Apart C := by
    rw [hpersist]
    exact hd.apart ha
  have hopened : t₃.estate.Apart C := by
    rw [hheld]
    exact ha₂.opened hnew hbelow
  rw [hend.2]
  refine hopened.cons (h := session.holding) (t := parts.id) ?_ rfl rfl ?_
  · rw [hheld]
    exact Function.update_self _ _ _
  · intro k q hq
    have hf := newSession_fresh w ha hx hu₁ hq
    refine ⟨hf.lease,hf.outputs,?_,?_⟩
    · rw [hheld,hpersist]
      exact hf.below
    · intro s hs x hxs
      refine hf.apart s hs x ?_
      obtain ⟨g,i,hg,hi⟩ := hxs
      obtain ⟨g',hg',_⟩ := ha₂.known s hs
      refine ⟨g,i,?_,hi⟩
      rw [hheld] at hg
      have hne : s.value ≠ session.id.value := by
        intro he
        rw [he] at hg'
        rw [show t₂.estate.sessions session.id.value=none from hnew] at hg'
        cases hg'
      have hg : Function.update t₂.estate.sessions session.id.value (some session.holding) s.value=some g := hg
      rw [Function.update_of_ne hne] at hg
      rwa [hpersist] at hg

/-- An adopted session takes nothing from the others, whatever it cites. -/
theorem adoptSession_apart {C : List CompilerSessionId} {session : CompilerSession} {rt t : Runtime}
    {result : Result (Ref .session)} (ha : rt.estate.Apart C)
    (h : adoptSession w session rt=(result,t)) (hu : t.estate.spent=false) :
    t.estate.Apart C := by
  rcases seq_eq h with ⟨e,hg,_⟩ | ⟨_,_,hg,h⟩
  · cases hg
  cases hg
  rcases seq_eq h with ⟨e,hc,_⟩ | ⟨_,_,hc,h⟩
  · cases (congrArg Prod.snd hc : rt=t)
    exact ha
  cases (ofExcept_eq_ok.1 hc).2
  rcases seq_eq h with ⟨e,hc,_⟩ | ⟨_,_,hc,h⟩
  · cases (congrArg Prod.snd hc : rt=t)
    exact ha
  have ⟨hnone,he⟩ := ofExcept_eq_ok.1 hc
  subst he
  have hnone : rt.find session.id=none := by simpa [ensure_ok] using ensure_ok.1 hnone
  rcases seq_eq h with ⟨e,hm,_⟩ | ⟨_,_,hm,h⟩
  · cases hm
  cases hm
  let t₁ : Runtime := { rt with sessionIds := rt.sessionIds.observe session.id }
  have ha₁ : t₁.estate.Apart C :=
    ha.advanced (rt.sessionIds.le_observe session.id) (Nat.le_refl rt.phaseIds.counter.toNat)
  rcases seq_eq h with ⟨e,hf,_⟩ | ⟨fenced,t₂,hf,h⟩
  · rw [estate_eq (fencePhases_estate w _ _ _) hf]
    exact ha₁
  have hfence := estate_eq (fencePhases_estate w _ _ _) hf
  have hid : (recovered fenced rt.epoch w.now).id=session.id := by
    have h := congrArg Holding.id (fencePhases_holding w _ _ hf)
    have hr : (recovered fenced rt.epoch w.now).id=fenced.id := by
      unfold recovered
      dsimp only
      split <;> rfl
    exact hr.trans h
  rcases seq_eq h with ⟨e,hp,_⟩ | ⟨_,t₃,hp,h⟩
  · rw [estate_eq (persist_estate w _) hp,hfence]
    exact ha₁
  have hpersist := (estate_eq (persist_estate w _) hp).trans hfence
  rcases seq_eq h with ⟨e,hm,_⟩ | ⟨_,_,hm,h⟩
  · cases hm
  cases hm
  cases h
  have hn : t₃.estate.sessions (recovered fenced rt.epoch w.now).id.value=none := by
    rw [hpersist,hid]
    exact Option.map_eq_none_iff.2 hnone
  have hheld := insert_held (recovered fenced rt.epoch w.now) hn
  rw [hheld] at hu ⊢
  refine (hpersist ▸ ha₁ : t₃.estate.Apart C).opened hn ?_
  simp only [Estate.spent,Bool.or_eq_false_iff] at hu
  have hs : t₃.sessionIds=rt.sessionIds.observe session.id := congrArg Estate.sessionIds hpersist
  have hus : t₃.sessionIds.spent=false := hu.1.1.1
  show _<t₃.sessionIds.counter.toNat
  rw [hs] at hus ⊢
  rw [hid]
  exact IdAllocator.lt_observe hus

end Runtime

end CompilerFabric
