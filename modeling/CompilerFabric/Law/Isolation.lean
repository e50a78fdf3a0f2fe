import CompilerFabric.Runtime.Openings
import Mathlib.Data.List.Induction

namespace CompilerFabric

open Base Base.Action

namespace Runtime

/-- Everything that is the session's own stays as it is: its record with its phases and its
candidate, the leases granted to it, and what its phases produced, which a completion lists in
`intermediates` as it registers it. -/
structure LeftAlone (t : CompilerSessionId) (rt rt' : Runtime) : Prop where
  session : rt'.find t=rt.find t
  leases : ∀ id : LeaseId,(rt'.leases.find id).filter (·.session.id=t)=
    (rt.leases.find id).filter (·.session.id=t)
  artifacts : ∀ s,rt.find t=some s → ∀ o ∈ s.intermediates,
    rt'.artifacts.find o.id=rt.artifacts.find o.id

end Runtime

/-- The session a call of `run_phase`, `retry_phase`, `commit_phase`, `report_output`,
`fail_phase`, `cancel_phase`, `cancel_session` or `retire_session` is on. -/
def Command.on : Command → Option CompilerSessionId
  | .runPhase session _ | .retryPhase session _ | .cancelPhase session _ _
  | .cancelSession session _ | .retireSession session _ | .reportOutput session _ _ _ _ _
  | .commitPhase session _ _ _ | .failPhase session _ _ _ _ _ => some session
  | _ => none

def Call.on : Call → Option CompilerSessionId
  | .phase run => some run.session
  | .cancel who _ _ => some who
  | _ => none

namespace System

/-- The session whose operation the event is a locked part of. -/
def on (sys : System) : Event → Option CompilerSessionId
  | .call command _ => command.on
  | .resume index _ => sys.calls[index]?.bind Call.on
  | .restart .. => none

/-- The session an event has `create_session` return. -/
def makes (sys : System) : Event → List CompilerSessionId
  | .call (.createSession request) w =>
      if sys.up then ((Runtime.createSession w request (sys.rt.facing w)).1.toOption.map (·.id)).toList
      else []
  | _ => []

/-- The sessions made by `create_session` in a run. -/
def made (sys : System) : List Event → List CompilerSessionId
  | [] => []
  | e::events => (sys.apply e).made events++sys.makes e

/-- No operation on a session made by `create_session` touches another one. -/
def Isolates (sys : System) (events : List Event) : Prop :=
  ∀ n e,events[n]?=some e → ∀ s ∈ sys.made (events.take n),∀ t ∈ sys.made (events.take n),s ≠ t →
    (sys.run (events.take n)).on e=some s →
      Runtime.LeftAlone t (sys.run (events.take n)).rt ((sys.run (events.take n)).apply e).rt

/-- None of the allocators of sessions, phases, leases and artifacts has come to its last
identity. -/
def unspent (sys : System) (_ : Event) : Bool :=
  !(sys.rt.sessionIds.spent || sys.rt.phaseIds.spent || sys.rt.leases.allocator.spent ||
    sys.rt.artifacts.allocator.spent)

end System

theorem System.unspent_eq {sys : System} {e : Event} :
    sys.unspent e ↔ sys.rt.estate.spent=false := by
  rw [System.unspent,Bool.not_eq_true']
  rfl

namespace Runtime

variable {C : List CompilerSessionId} {rt rt' : Runtime} {who t : CompilerSessionId}

theorem made_of_intermediate {s : CompilerSession} {o : Ref .intermediate} (hs : rt.find t=some s)
    (ho : o ∈ s.intermediates) : rt.estate.Made t o.id := by
  have hs : rt.sessions[t.value]?=some s := hs
  refine ⟨s.holding,?_,List.mem_map_of_mem ho⟩
  simp only [estate,hs,Option.map_some]

/-- What one session reaches, another has not made. -/
theorem not_reaches (ha : rt.estate.Apart C) (hw : who ∈ C) (ht : t ∈ C) (hne : who ≠ t)
    {id : IntermediateArtifactId} (hm : rt.estate.Made t id) : ¬rt.estate.Reaches who id := by
  intro h
  have ⟨q,hq,hi⟩ := h
  rcases hi with hi | hi
  · exact hne (ha.madeApart who hw t ht id (ha.outputs who hw q hq id hi) hm)
  · have ⟨p,hp,he⟩ := ha.index t ht id hm q.id.value hi
    exact hne (ha.phaseApart who hw t ht q p hq hp (StrongId.ext he.symm))

theorem Acts.leftAlone (h : Acts who rt rt') (ha : rt.estate.Apart C) (hw : who ∈ C) (ht : t ∈ C)
    (hne : who ≠ t) : LeftAlone t rt rt' := by
  refine ⟨h.sessions t.value fun he => hne (StrongId.ext he.symm),?_,?_⟩
  · intro id
    have hlt : (rt.leases.find id).isSome → id.value.toNat<rt.leases.allocator.counter.toNat := by
      intro hs
      have ⟨l,hl⟩ := Option.isSome_iff_exists.1 hs
      exact (ha.granted id.value l.session.id (Option.map_eq_some_iff.2 ⟨l,hl,rfl⟩)).2
    by_cases hi : id.value.toNat<rt.leases.allocator.counter.toNat
    · rcases h.leases id.value hi with he | ⟨q,hq,hl⟩
      · exact congrArg (Option.filter _) he
      · -- the lease is cited by the other session, and so granted to it
        have cited {rt'' : Runtime} (hs : ∀ x,rt''.estate.leases id.value=some x → x=who) :
            (rt''.leases.find id).filter (·.session.id=t)=none := by
          refine Option.filter_eq_none_iff.2 fun l hl => ?_
          have hx := hs l.session.id (Option.map_eq_some_iff.2 ⟨l,hl,rfl⟩)
          simpa [hx] using hne
        have hold := (ha.cited who hw q hq).2
        rw [hl] at hold
        rw [cited hold,cited]
        intro x hx
        rcases h.estate.leases hx with hx | ⟨hle,_⟩
        · exact hold x hx
        · exact absurd hi (Nat.not_lt.2 hle)
    · have hn : rt.leases.find id=none := by
        cases hf : rt.leases.find id with
        | none => rfl
        | some l => exact absurd (hlt (by rw [hf]; rfl)) hi
      rw [hn]
      refine Option.filter_eq_none_iff.2 fun l hl => ?_
      have hx : rt'.estate.leases id.value=some l.session.id := Option.map_eq_some_iff.2 ⟨l,hl,rfl⟩
      rcases h.estate.leases hx with hx | ⟨_,g,hg,he⟩
      · have ⟨l',hl',_⟩ := Option.map_eq_some_iff.1 hx
        rw [show rt.leases.entries[id.value]?=none from hn] at hl'
        cases hl'
      · have ⟨g',hg',hid⟩ := ha.known who hw
        rw [hg] at hg'
        cases hg'
        rw [he,hid]
        simpa using hne
  · intro s hs o ho
    have hm := made_of_intermediate hs ho
    exact (h.artifacts o.id.value (ha.made t ht o.id hm)).resolve_right
      (not_reaches ha hw ht hne hm)

end Runtime

namespace PhaseRun

/-- The reservation a run works with is one on its own session. -/
def owned (run : PhaseRun) : Prop :=
  match run.pc with
  | .reserve => True
  | .prepare r | .execute r | .record r _ | .inspect r _ | .reproduce r _ | .verify r _
  | .refuse r _ | .validate r _ | .judge r _ | .commit r _ => r.session=run.session

variable {w : World} {rt : Runtime} {run : PhaseRun}

theorem step_acts (h : run.owned) : Runtime.Acts run.session rt (run.step w rt).2 := by
  unfold owned at h
  unfold step
  cases hpc : run.pc with
  | reserve =>
    have ha := Runtime.reserve_acts w run.session run.phase run.isRetry rt
    dsimp only
    split
    · next he => rwa [he] at ha
    · next he => rwa [he] at ha
  | prepare r =>
    rw [hpc] at h
    have ha := (Runtime.prepare_tends w r rt).acts
    rw [h] at ha
    dsimp only
    split
    · next he => rwa [he] at ha
    · next he => rwa [he] at ha
  | execute r =>
    rw [hpc] at h
    dsimp only
    split
    · exact Std.Refl.refl rt
    · exact h ▸ (Runtime.noteProcess_tends r _ rt).acts
  | record r report =>
    rw [hpc] at h
    dsimp only
    rw [after_snd]
    exact h ▸ Runtime.recordExecution_acts w r _ rt
  | inspect r report =>
    dsimp only
    split
    · split <;> exact Std.Refl.refl rt
    · exact Std.Refl.refl rt
  | reproduce r report =>
    dsimp only
    split <;> exact Std.Refl.refl rt
  | verify r report =>
    dsimp only
    split <;> exact Std.Refl.refl rt
  | refuse r status =>
    rw [hpc] at h
    dsimp only
    rw [after_snd]
    exact h ▸ (Runtime.refuseDivergent_tends w r status rt).acts
  | validate r report =>
    dsimp only
    split <;> exact Std.Refl.refl rt
  | judge r report =>
    rw [hpc] at h
    dsimp only
    split
    · exact Std.Refl.refl rt
    · rw [after_snd]
      exact h ▸ (Runtime.applyEvidence_tends w r _ rt).acts
  | commit r report =>
    rw [hpc] at h
    dsimp only
    rw [after_snd]
    exact h ▸ (Runtime.commitReserved_tends w r report rt).acts

theorem Goes.owned {pc : PhasePc} (hg : run.Goes w rt pc) (h : run.owned) :
    { run with pc }.owned := by
  unfold PhaseRun.owned at h ⊢
  cases hg with
  | @reserved t r hpc hr =>
    rcases Runtime.reserve_spec w _ _ hr with ⟨_,e,he,_⟩ | ⟨_,_,_,r',hres,he⟩
    · cases he
    · rcases he with he | ⟨⟨_,he⟩,_⟩
      · cases he
        exact hres.session
      · cases he
  | _ hpc =>
    rw [hpc] at h
    exact h

end PhaseRun

namespace Command

variable {w : World} {rt : Runtime} {c : Command} {s : CompilerSessionId}

theorem start_acts (h : c.on=some s) : Runtime.Acts s rt (c.start w rt).2 := by
  cases c with
  | runPhase => exact Std.Refl.refl rt
  | retryPhase session phase =>
    cases h
    have ha := (Runtime.beginRetry_tends s phase rt).acts
    simp only [start]
    split
    · next he => rwa [he] at ha
    · next he => rwa [he] at ha
    · next he => rwa [he] at ha
  | cancelPhase session phase reason =>
    cases h
    exact (Runtime.cancelPhase_tends w s phase reason rt).acts
  | cancelSession session reason =>
    simp only [start]
    split <;> exact Std.Refl.refl rt
  | retireSession session reason =>
    cases h
    exact (Runtime.retireSession_tends w s reason rt).acts
  | reportOutput session phase generation invocation outputs process =>
    cases h
    exact Runtime.reportOutput_acts w s phase generation invocation outputs process rt
  | commitPhase session phase generation invocation =>
    simp only [start]
    split <;> exact Std.Refl.refl rt
  | failPhase session phase generation failure status detail =>
    cases h
    exact (Runtime.failPhase_tends w s phase generation failure status detail rt).acts
  | _ => cases h

/-- The calls on no session in particular, but for the two that bring a new one. -/
theorem start_estate (h : c.on=none) (hc : ∀ request,c ≠ .createSession request)
    (ha : ∀ session,c ≠ .adoptSession session) :
    (c.start w rt).2.estate=rt.estate := by
  cases c with
  | createSession request => exact absurd rfl (hc request)
  | adoptSession session => exact absurd rfl (ha session)
  | runSession => rfl
  | applyRecovery session =>
    have hr : Within Runtime.SameEstate (Runtime.beginRecovery session) :=
      Within.get.bind fun _ => (Within.ofExcept _).bind fun _ =>
        Within.bind (fun _ => rfl) fun _ => .pure _
    simp only [start]
    split
    · next he => exact Runtime.estate_eq hr he
    · next he => exact Runtime.estate_eq hr he
  | shutdown =>
    have hs := Runtime.beginShutdown_estate w
    simp only [start]
    split
    · next he => exact Runtime.estate_eq hs he
    · next he => exact Runtime.estate_eq hs he
    · next he => exact Runtime.estate_eq hs he
  | reopen => rfl
  | addAdapter adapter => rfl
  | discoverToolchain family =>
    have hd : Within Runtime.SameEstate (Runtime.discoverToolchain w family) :=
      Within.get.bind fun _ => (Within.ofExcept _).bind fun _ => (Within.ofExcept _).bind fun _ =>
        (Runtime.onToolchains_estate _).bind fun _ => Runtime.recordEvidence_estate.bind fun _ =>
          .pure _
    exact hd rt
  | refreshToolchain id =>
    have hf : Within Runtime.SameEstate (Runtime.refreshToolchain w id) :=
      Within.get.bind fun _ => (Within.ofExcept _).bind fun _ => (Within.ofExcept _).bind fun _ =>
        (Within.ofExcept _).bind fun _ => Runtime.moveToolchain_estate _
    exact hf rt
  | invalidateToolchain id reason => exact Runtime.moveToolchain_estate _ rt
  | applyToolchainObservation observed => exact Runtime.moveToolchain_estate _ rt
  | internTarget spec => exact Runtime.onTargets_estate _ rt
  | reviseTarget id spec => exact Runtime.onTargets_estate _ rt
  | internEnvironment spec => exact Runtime.onEnvironments_estate _ rt
  | reviseEnvironment id spec => exact Runtime.onEnvironments_estate _ rt
  | internPolicy spec => exact Runtime.onPolicies_estate _ rt
  | revisePolicy id spec => exact Runtime.onPolicies_estate _ rt
  | addSource => exact Runtime.onSources_estate _ rt
  | revokeLease id reason => exact rt.revoke_estate id reason
  | revokePhaseLeases phase reason => exact rt.revokePhase_estate phase reason
  | _ => cases h

end Command

theorem SessionRun.step_estate (w : World) (run : SessionRun) (calls : List Call) (rt : Runtime) :
    (run.step w calls rt).2.2.estate=rt.estate := by
  unfold step
  cases run.pc with
  | limit =>
    dsimp only
    split <;> rfl
  | ceiling =>
    dsimp only
    split <;> rfl
  | round =>
    dsimp only
    split
    · exact Runtime.failSession_estate w run.session _ rt
    · have h := Runtime.beginRound_estate w run.session
      split
      · next he => exact Runtime.estate_eq h he
      · next he => exact Runtime.estate_eq h he
      · next he => exact Runtime.estate_eq h he
      · next he => exact Runtime.estate_eq h he
  | waiting children =>
    dsimp only
    split
    · rfl
    · split
      · rfl
      · split
        · rfl
        · exact Runtime.failIfActive_estate w run.session _ rt
  | finish =>
    dsimp only
    split <;> rfl

namespace System

variable {sys : System} {e : Event}

/-- Every phase run in progress works with a reservation on its session. -/
def Staffed (sys : System) : Prop :=
  ∀ (i : Nat) (run : PhaseRun),sys.calls[i]?=some (.phase run) → run.owned

theorem Starts.owned {run : PhaseRun} (h : sys.Starts e run) : run.owned := by
  cases h with
  | run => trivial
  | round => trivial
  | retry => trivial
  | @direct session phase generation invocation w r h =>
    simp only [Runtime.commitPhase,do_eq_ok] at h
    obtain ⟨s,_,p,_,_,_,_,_,h⟩ := h
    split at h
    · obtain ⟨_,_,h⟩ := do_eq_ok.1 h
      cases h
    · obtain ⟨_,_,h⟩ := do_eq_ok.1 h
      cases h
      rfl

theorem Staffed.apply (h : sys.Staffed) : (sys.apply e).Staffed := by
  intro i run hr
  rcases apply_phaseRun hr with hr | ⟨w,before,_,_,hb,he,hg⟩ | ⟨_,_,hs⟩
  · exact h i run hr
  · rw [he]
    exact hg.owned (h i before hb)
  · exact hs.owned

/-- An event on a session is an operation on it. -/
theorem apply_acts {s : CompilerSessionId} (h : sys.Staffed) (hs : sys.on e=some s) :
    Runtime.Acts s sys.rt (sys.apply e).rt := by
  have facing {w : World} {rt' : Runtime} (ha : Runtime.Acts s (sys.rt.facing w) rt') :
      Runtime.Acts s sys.rt rt' := ⟨ha.estate,ha.sessions,ha.leases,ha.artifacts⟩
  cases e with
  | restart options adapters w => cases hs
  | call command w =>
    simp only [apply]
    split
    · exact facing (Command.start_acts hs)
    · exact Std.Refl.refl sys.rt
  | resume index w =>
    simp only [apply]
    split
    · obtain ⟨call,hc,ho⟩ := Option.bind_eq_some_iff.1 hs
      rw [hc]
      cases call with
      | phase run =>
        cases ho
        exact facing (PhaseRun.step_acts (h index run hc))
      | cancel session reason remaining =>
        cases ho
        cases remaining with
        | nil => exact facing (Runtime.endCancelSession_tends w s reason (sys.rt.facing w)).acts
        | cons phase rest =>
          exact facing (Runtime.cancelPhase_tends w s phase reason (sys.rt.facing w)).acts
      | _ => cases ho
    · exact Std.Refl.refl sys.rt

/-- What an event does to the holdings: an operation on one session, or the call that brings a new
one. -/
theorem apply_estate (h : sys.Staffed) (hp : e.inProcess) :
    (sys.makes e=[] ∧ ∃ who,sys.rt.estate.Moves who (sys.apply e).rt.estate) ∨
    ∃ w,(∃ request result,e=.call (.createSession request) w ∧ sys.up ∧
        Runtime.createSession w request (sys.rt.facing w)=(result,(sys.apply e).rt)) ∨
      ∃ session result,e=.call (.adoptSession session) w ∧ sys.up ∧
        Runtime.adoptSession w session (sys.rt.facing w)=(result,(sys.apply e).rt) := by
  cases ho : sys.on e with
  | some s =>
    refine .inl ⟨?_,s,(apply_acts h ho).estate⟩
    unfold makes
    split
    · cases ho
    · rfl
  | none =>
    have same (hm : sys.makes e=[]) (he : (sys.apply e).rt.estate=sys.rt.estate) :
        sys.makes e=[] ∧ ∃ who,sys.rt.estate.Moves who (sys.apply e).rt.estate := by
      refine ⟨hm,{},?_⟩
      rw [he]
      exact .refl _
    cases e with
    | restart options adapters w => exact hp.elim
    | call command w =>
      by_cases hup : sys.up
      · have hrt : (sys.apply (.call command w)).rt=(command.start w (sys.rt.facing w)).2 := by
          simp only [apply,hup,if_true]
        cases command with
        | createSession request =>
          refine .inr ⟨w,.inl ⟨request,(Runtime.createSession w request (sys.rt.facing w)).1,rfl,hup,?_⟩⟩
          rw [hrt]
          rfl
        | adoptSession session =>
          refine .inr ⟨w,.inr ⟨session,(Runtime.adoptSession w session (sys.rt.facing w)).1,rfl,hup,?_⟩⟩
          rw [hrt]
          rfl
        | _ =>
          refine .inl (same rfl ?_)
          rw [hrt]
          exact Command.start_estate ho (by rintro _ ⟨⟩) (by rintro _ ⟨⟩)
      · have hsame : sys.apply (.call command w)=sys := by simp [apply,hup]
        refine .inl (same ?_ (by rw [hsame]))
        cases command <;> simp [makes,hup]
    | resume index w =>
      refine .inl (same rfl ?_)
      simp only [apply]
      split
      · cases hc : sys.calls[index]? with
        | none => rfl
        | some call =>
          have ho : call.on=none := by
            simp only [on,hc,Option.bind_some] at ho
            exact ho
          cases call with
          | session run => exact run.step_estate w sys.calls (sys.rt.facing w)
          | recovery session plan =>
            exact Runtime.endRecovery_estate w session plan (sys.rt.facing w)
          | stopping => exact Runtime.endShutdown_estate w (sys.rt.facing w)
          | phase | cancel => cases ho
          | _ => rfl
      · rfl

/-- One event of the process keeps the sessions made so far apart, with the one it makes. -/
theorem apply_apart {C : List CompilerSessionId} (h : sys.Staffed) (hp : e.inProcess)
    (ha : sys.rt.estate.Apart C) (hu : (sys.apply e).rt.estate.spent=false) :
    (sys.apply e).rt.estate.Apart (sys.makes e++C) := by
  rcases apply_estate h hp with
    ⟨hm,who,hs⟩ | ⟨w,⟨request,result,rfl,hup,hx⟩ | ⟨session,result,rfl,hup,hx⟩⟩
  · rw [hm]
    exact hs.apart hu ha
  · have hm : sys.makes (.call (.createSession request) w)=
        (result.toOption.map (·.id)).toList := by simp only [makes,hup,if_true,hx]
    rw [hm]
    have haf : (sys.rt.facing w).estate.Apart C := ha
    exact Runtime.createSession_apart w haf hx hu
  · have haf : (sys.rt.facing w).estate.Apart C := ha
    exact Runtime.adoptSession_apart w haf hx hu

end System

namespace Runtime

/-- Nothing is held that the allocators were not told of. -/
def Grounds (rt t : Runtime) : Prop := rt.estate.Grounded → t.estate.Grounded

instance : IsPreorder Runtime Grounds where
  refl _ h := h
  trans _ _ _ h h' hg := h' (h hg)

theorem grounds_of_estate {α : Type} {x : Op α} (h : Within SameEstate x) : Within Grounds x :=
  h.mono fun rt t h hg => by
    have h : t.estate=rt.estate := h
    rw [h]
    exact hg

theorem spent_of_le {tag : IdTag} {a b : IdAllocator tag} (h : a.counter.toNat ≤ b.counter.toNat)
    (ha : a.spent) : b.spent := by
  cases hb : b.spent with
  | true => rfl
  | false =>
    rw [IdAllocator.unspent_of_le h hb] at ha
    cases ha

theorem observed_or {tag : IdTag} (a : IdAllocator tag) (id : StrongId tag) :
    id.value.toNat<(a.observe id).counter.toNat ∨ (a.observe id).spent := by
  cases h : (a.observe id).spent with
  | true => exact .inr rfl
  | false => exact .inl (IdAllocator.lt_observe h)

theorem reloadArtifact_grounds (artifact : IntermediateArtifact) :
    Within Grounds (reloadArtifact artifact) := by
  intro rt hg
  unfold reloadArtifact ArtifactRegistry.registerArtifactAs
  by_cases hp : !artifact.id.present
  · rw [if_pos hp]
    exact hg
  rw [if_neg hp]
  have hle := rt.artifacts.allocator.le_observe artifact.id
  refine ⟨hg.sessions,hg.leases,?_⟩
  intro i id hid
  have hid : id ∈ (rt.artifacts.indexPhase artifact.producerPhase.id artifact.id).getD i [] := hid
  rw [ArtifactRegistry.indexPhase,Std.ExtTreeMap.getD_insert] at hid
  have old (hid : id ∈ rt.artifacts.byPhase.getD i []) :
      id.value.toNat<(rt.artifacts.allocator.observe artifact.id).counter.toNat ∨
        (rt.artifacts.allocator.observe artifact.id).spent := by
    rcases hg.index i id hid with h | h
    · exact .inl (Nat.lt_of_lt_of_le h hle)
    · exact .inr (spent_of_le hle h)
  split at hid
  · next hi =>
    have hi := Std.LawfulEqCmp.eq_of_compare hi
    rcases List.mem_append.1 hid with hid | hid
    · rw [hi] at hid
      exact old hid
    · rw [List.mem_singleton.1 hid]
      exact observed_or _ _
  · exact old hid

theorem reload_grounds {α : Type} (bytes : Bytes) (decode : Bytes → Result α)
    {register : α → Op Unit} (h : ∀ a,Within Grounds (register a)) :
    Within Grounds (reload bytes decode register) := by
  unfold reload
  split
  · exact .pure _
  · exact (Within.ofExcept _).bind fun a => h a

theorem reloadAuthority_grounds (bundle : SessionBundle) :
    Within Grounds (reloadAuthority bundle) := by
  have same {α : Type} {x : Op α} (h : Within SameEstate x) : Within Grounds x := grounds_of_estate h
  refine (reload_grounds _ _ fun _ => (same (onToolchains_estate _)).bind fun _ => .pure _).bind
    fun _ => ?_
  refine (reload_grounds _ _ fun _ => (same (onTargets_estate _)).bind fun _ => .pure _).bind
    fun _ => ?_
  refine (reload_grounds _ _ fun _ => (same (onEnvironments_estate _)).bind fun _ => .pure _).bind
    fun _ => ?_
  refine (reload_grounds _ _ fun _ => (same (onPolicies_estate _)).bind fun _ => .pure _).bind
    fun _ => ?_
  refine (Within.forEach (fun _ => reload_grounds _ _ fun _ =>
    (same (onSources_estate _)).bind fun _ => .pure _) _).bind fun _ => ?_
  refine (Within.forEach reloadArtifact_grounds _).bind fun _ => ?_
  refine (Within.forEach (fun _ => reload_grounds _ _ fun _ => ?_) _).bind fun _ => ?_
  · exact grounds_of_estate fun _ => rfl
  · refine Within.forEach (fun set => same fun rt => ?_) _
    unfold reloadDiagnostics
    split <;> rfl

theorem recoverSession_grounds (w : World) (bundle : SessionBundle) :
    Within Grounds (recoverSession w bundle) := by
  refine (reloadAuthority_grounds bundle).bind fun _ => ?_
  intro rt hg
  let grounded (t : Runtime) : Prop := t.estate.Grounded
  let t₁ : Runtime := { rt with sessionIds := rt.sessionIds.observe bundle.session.id }
  have hle := rt.sessionIds.le_observe bundle.session.id
  have hg₁ : t₁.estate.Grounded := by
    refine ⟨?_,hg.leases,hg.index⟩
    intro i h hi
    rcases hg.sessions i h hi with h | h
    · exact .inl (Nat.lt_of_lt_of_le h hle)
    · exact .inr (spent_of_le hle h)
  refine bind_state (Q := grounded) (fun _ _ h => nomatch h) ?_
  rintro _ _ ⟨⟩
  refine bind_state (Q := grounded) ?_ ?_
  · intro e t₂ hf
    show t₂.estate.Grounded
    rw [estate_eq (fencePhases_estate w _ _ _) hf]
    exact hg₁
  intro fenced t₂ hf
  have hfence : t₂.estate=t₁.estate := estate_eq (fencePhases_estate w _ _ _) hf
  have hid : (recovered fenced t₂.epoch w.now).id=bundle.session.id := by
    have hr : (recovered fenced t₂.epoch w.now).id=fenced.id := by
      unfold recovered
      dsimp only
      split <;> rfl
    exact hr.trans (congrArg Holding.id (fencePhases_holding w _ _ hf))
  refine bind_state (Q := grounded) (fun _ _ h => nomatch h) ?_
  rintro _ _ ⟨⟩
  refine bind_state (Q := grounded) ?_ ?_
  · intro e t₃ hp
    show t₃.estate.Grounded
    rw [estate_eq (persist_estate w _) hp,hfence]
    exact hg₁
  intro _ t₃ hp
  have hpersist : t₃.estate=t₁.estate := (estate_eq (persist_estate w _) hp).trans hfence
  rw [← hpersist] at hg₁
  refine ⟨?_,hg₁.leases,hg₁.index⟩
  intro i h hi
  have hi : (t₃.sessions.insertIfNew (recovered fenced t₂.epoch w.now).id.value
      (recovered fenced t₂.epoch w.now))[i]?.map (·.holding)=some h := hi
  rw [Std.ExtTreeMap.getElem?_insertIfNew] at hi
  split at hi
  · next hk =>
    have hk := Std.LawfulEqCmp.eq_of_compare hk.1
    have hs : t₃.sessionIds=rt.sessionIds.observe bundle.session.id :=
      congrArg Estate.sessionIds hpersist
    show i.toNat<t₃.sessionIds.counter.toNat ∨ t₃.sessionIds.spent
    rw [hs,← hk,hid]
    exact observed_or _ _
  · exact hg₁.sessions i h hi

/-- A process starts with nothing held beyond what its allocators know of. -/
theorem create_grounded (w : World) (options : RuntimeOptions) (adapters : List Adapter)
    (file : Bytes) : (create w options adapters file).2.estate.Grounded := by
  have start (store : Option PersistenceStore) (epoch : UInt64) :
      ({ options,adapters,epoch,persistence := store } : Runtime).estate.Grounded := by
    refine ⟨?_,?_,?_⟩
    · intro i h hi
      simp [estate] at hi
    · intro i
      simp [estate]
    · intro i id hid
      simp [estate] at hid
  unfold create
  dsimp only
  split
  · exact start none 0
  · split
    · split
      · exact start _ 0
      · next store _ =>
        have recover : Within Grounds (recoverFrom w store.load) := by
          refine (Within.ofExcept _).bind fun _ => ?_
          refine Within.bind (grounds_of_estate fun _ => rfl) fun _ => ?_
          refine Within.bind (grounds_of_estate fun rt => ?_) fun _ => Within.get.bind fun _ => ?_
          · unfold recordEpoch
            split
            · rfl
            · split <;> rfl
          · split
            · refine Within.bind (grounds_of_estate fun _ => rfl) fun _ => ?_
              refine (Within.forEach (recoverSession_grounds w) _).bind fun _ => ?_
              split
              · exact .pure _
              · exact (grounds_of_estate recordEvidence_estate).bind fun _ => .pure _
            · exact .pure _
        exact recover _ (start _ 0)
    · exact start none 1

end Runtime

namespace System

variable {sys : System}

theorem made_snoc (sys : System) (events : List Event) (e : Event) :
    sys.made (events++[e])=(sys.run events).makes e++sys.made events := by
  induction events generalizing sys with
  | nil => simp [made,run]
  | cons first rest ih =>
    rw [List.cons_append,made,ih,made,List.append_assoc]
    rfl

/-- In a run that exhausts no allocator the sessions it made are apart. -/
theorem apart_run {options : RuntimeOptions} {adapters : List Adapter} {file : Bytes} {w : World}
    {events : List Event} (hp : ∀ e ∈ events,e.inProcess)
    (h : along unspent (boot options adapters file w) events) :
    ((boot options adapters file w).run events).Staffed ∧
      (((boot options adapters file w).run events).rt.estate.spent=false →
        ((boot options adapters file w).run events).rt.estate.Apart
          ((boot options adapters file w).made events)) := by
  induction events using List.reverseRecOn with
  | nil =>
    refine ⟨?_,?_⟩
    · intro i r hr
      simp [run,boot] at hr
    · intro hu
      exact (Runtime.create_grounded w options adapters file).apart hu
  | append_singleton events e ih =>
    rw [along_snoc,Bool.and_eq_true] at h
    obtain ⟨hs,ha⟩ := ih (fun x hx => hp x (List.mem_append_left _ hx)) h.1
    have hbefore := unspent_eq.1 h.2
    have hin := hp e (List.mem_append_right _ (List.mem_singleton.2 rfl))
    rw [run_snoc,made_snoc]
    exact ⟨hs.apply,fun hu => apply_apart hs hin (ha hbefore) hu⟩

/-- Sessions made by `create_session` are isolated from each other in every run of a process
that does not exhaust an allocator. -/
theorem isolates_of_unspent {options : RuntimeOptions} {adapters : List Adapter} {file : Bytes}
    {w : World} {events : List Event} (hp : ∀ e ∈ events,e.inProcess)
    (h : along unspent (boot options adapters file w) events) :
    (boot options adapters file w).Isolates events := by
  intro n e hn s hs t ht hne ho
  have ⟨hstaff,ha⟩ := apart_run (fun x hx => hp x (List.mem_of_mem_take hx)) (along_take h n)
  exact (apply_acts hstaff ho).leftAlone (ha (unspent_eq.1 (along_at h hn))) hs ht hne

end System

namespace Sample

/-- Two sessions, a phase of each run, and the first one cancelled. -/
def neighbours : List Event :=
  [.call (.discoverToolchain family) world,.call (.createSession request) world,
    .call (.createSession request) world,.call (.runPhase ⟨2⟩ ⟨2⟩) world]++
    List.replicate 9 (.resume 3 world)++.call (.cancelSession ⟨1⟩ []) world::List.replicate 3 (.resume 4 world)

/-- The first session again, under the last identity there is. -/
def lastSession : CompilerSession :=
  { (created.rt.find ⟨1⟩).getD {} with id := ⟨IdAllocator.kMax⟩ }.modifyPhase ⟨1⟩
    fun p => { p with generation := ⟨2⟩ }

/-- A session is adopted under the last identity, and then one is made: `create_session` answers
with that identity, and its record is the adopted one. -/
def shadowed : List Event :=
  [.call (.discoverToolchain family) world,.call (.createSession request) world,
    .call (.adoptSession lastSession) world,.call (.createSession request) world,
    .call (.runPhase ⟨1⟩ ⟨1⟩) world]++List.replicate 9 (.resume 4 world)

def revoking : Event := .call (.cancelPhase ⟨IdAllocator.kMax⟩ ⟨1⟩ []) world

/-- A process without a journal. -/
def process : System := System.boot options [adapter] [] world

/-- One `run_phase` of the session, the `call`-th call of the process. -/
def phaseCalls (call : Nat) (phase : CompilerPhaseId) (w : World) : List Event :=
  .call (.runPhase ⟨1⟩ phase) w::List.replicate 9 (.resume call w)

end Sample

namespace System

theorem isolates_of_neighbours : Sample.process.Isolates Sample.neighbours ∧
    Sample.process.made Sample.neighbours=[⟨2⟩,⟨1⟩] := by
  have h : (along unspent Sample.process Sample.neighbours,
      Sample.process.made Sample.neighbours)=(true,[⟨2⟩,⟨1⟩]) := by decide +kernel
  have hp : ∀ e ∈ Sample.neighbours,e.inProcess := by
    intro e he
    simp only [Sample.neighbours,List.mem_append,List.mem_cons,List.not_mem_nil,or_false,
      List.mem_replicate] at he
    rcases he with ((rfl | rfl | rfl | rfl) | ⟨_,rfl⟩) | rfl | ⟨_,rfl⟩ <;> trivial
  have ⟨hu,hm⟩ := Prod.mk.inj h
  exact ⟨isolates_of_unspent hp hu,hm⟩

/-- The phase cancelled in the session made last is one of the first session, whose committed
artifact is revoked with it. -/
theorem not_isolates_of_shadowed : ¬Sample.process.Isolates (Sample.shadowed++[Sample.revoking]) := by
  intro h
  have hm : (decide (⟨IdAllocator.kMax⟩ ∈ Sample.process.made Sample.shadowed) &&
      decide (⟨1⟩ ∈ Sample.process.made Sample.shadowed) &&
      ((Sample.process.run Sample.shadowed).rt.find ⟨1⟩).any fun s => s.intermediates.any fun o =>
        (((Sample.process.run Sample.shadowed).apply Sample.revoking).rt.artifacts.find o.id).map
            (·.authority) ≠
          ((Sample.process.run Sample.shadowed).rt.artifacts.find o.id).map (·.authority))=true := by
    decide +kernel
  simp only [Bool.and_eq_true,decide_eq_true_eq,Option.any_eq_true,List.any_eq_true] at hm
  have ⟨⟨hlast,hfirst⟩,s,hs,o,ho,hne⟩ := hm
  have hu := h Sample.shadowed.length Sample.revoking List.getElem?_concat_length
  rw [List.take_left] at hu
  have hu := hu _ hlast _ hfirst (by decide) rfl
  exact hne (congrArg (Option.map _) (hu.artifacts s hs o ho))

end System

end CompilerFabric
