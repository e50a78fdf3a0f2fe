import CompilerFabric.Law.Lawful
import CompilerFabric.Runtime.Restart

namespace CompilerFabric

open Base Base.Action

namespace SessionState

/-- COMMITTED, CANCELLED and RETIRED end a session. -/
def terminal (s : SessionState) : Bool := s ∈ [committed,cancelled,retired]

/-- What may still become of an ended session. -/
def Later (a b : SessionState) : Prop := b=a ∨ b=.retired ∨ a=.committed ∧ b=.cancelled

instance (a b : SessionState) : Decidable (Later a b) :=
  inferInstanceAs (Decidable (_ ∨ _ ∨ _ ∧ _))

instance : IsPreorder SessionState Later where
  refl _ := .inl rfl
  trans := by
    intro a b c h h'
    rcases h' with rfl | h' | ⟨rfl,rfl⟩
    · exact h
    · exact .inr (.inl h')
    · rcases h with rfl | h | ⟨_,h⟩
      · exact .inr (.inr ⟨rfl,rfl⟩)
      · cases h
      · cases h

theorem Later.terminal {a b : SessionState} (h : Later a b) (ha : a.terminal) : b.terminal := by
  rcases h with rfl | rfl | ⟨_,rfl⟩
  · exact ha
  · rfl
  · rfl

/-- In what state a session last seen in `a` may be brought into a process that does not know it:
a restart and an adoption keep COMMITTED and RETIRED, and make RECOVERING of all else. -/
def returns (a b : SessionState) : Bool := b=.retired || b=.committed && a=.committed

theorem Later.restarting {a b c : SessionState} (h : a.returns b) (hr : restarting b c) :
    a.Later c := by
  rw [CompilerFabric.restarting] at hr
  simp only [returns,Bool.or_eq_true,Bool.and_eq_true,decide_eq_true_eq] at h
  rcases h with rfl | ⟨rfl,rfl⟩
  · exact .inr (.inl hr)
  · exact .inl hr

theorem not_open {a : SessionState} (h : a.terminal) : a ∉ [created,active,recovering] := by
  cases a <;> revert h <;> decide

end SessionState

namespace Runtime

variable {w : World} {rt : Runtime} {sid : CompilerSessionId}

theorem createSession_takes {request : CompileRequest} {s : CompilerSession} (hn : rt.find sid=none)
    (hs : (createSession w request rt).2.find sid=some s) : rt.sessionIds.next.1=sid := by
  obtain ⟨parts,_,hparts,rfl,_⟩ := createSession_new hn hs
  exact (sessionParts_ok w hparts).1.symm

theorem adoptSession_new {session s : CompilerSession} (hn : rt.find sid=none)
    (hs : (adoptSession w session rt).2.find sid=some s) : session.id=sid ∧ Restarts session s := by
  let brings (t : Runtime) : Prop := t.find sid=some s → session.id=sid ∧ Restarts session s
  suffices hb : brings (adoptSession w session rt).2 from hb hs
  have gone {t : Runtime} (ht : t.sessions=rt.sessions) : brings t := by
    intro hs
    rw [find_of_sessions ht,hn] at hs
    cases hs
  refine bind_state (Q := brings) (by rintro _ _ ⟨⟩) ?_
  rintro _ _ ⟨⟩
  refine bind_state (Q := brings) (fun e t ht => ?_) fun _ t ht => ?_
  · cases (congrArg Prod.snd ht : rt=t)
    exact gone rfl
  cases (ofExcept_eq_ok.1 ht).2
  refine bind_state (Q := brings) (fun e t ht => ?_) fun _ t ht => ?_
  · cases (congrArg Prod.snd ht : rt=t)
    exact gone rfl
  cases (ofExcept_eq_ok.1 ht).2
  refine bind_state (Q := brings) (by rintro _ _ ⟨⟩) ?_
  rintro _ _ ⟨⟩
  let t₁ : Runtime := { rt with sessionIds := rt.sessionIds.observe session.id }
  have hfence := (fenceAllInFlight_aside w "session adoption fenced in-flight authority" session
    t₁).toApart.sessions
  refine bind_state (Q := brings) (fun e t ht => ?_) fun fenced t₂ hf => ?_
  · rw [ht] at hfence
    exact gone hfence
  rw [hf] at hfence
  have hrec := recovered_restarts (fun _ _ h => h) (fenceAllInFlight_evolves (σ := Eq) w _ hf)
    rt.epoch w.now
  have hpersist := (persist_aside w (recovered fenced rt.epoch w.now) t₂).toApart.sessions
  refine bind_state (Q := brings) (fun e t ht => ?_) fun _ t₃ ht => ?_
  · rw [ht] at hpersist
    exact gone (hpersist.trans hfence)
  rw [ht] at hpersist
  intro hs
  have hs : (t₃.sessions.insertIfNew (recovered fenced rt.epoch w.now).id.value
      (recovered fenced rt.epoch w.now))[sid.value]?=some s := hs
  rw [Std.ExtTreeMap.getElem?_insertIfNew] at hs
  split at hs
  · next hk =>
    cases hs
    have hk := StrongId.ext (Std.LawfulEqCmp.eq_of_compare hk.1)
    exact ⟨(congrArg (·.1) hrec.binding).symm.trans hk,hrec⟩
  · rw [hpersist.trans hfence,show rt.sessions[sid.value]?=none from hn] at hs
    cases hs

end Runtime

namespace System

variable (sys : System) (sid : CompilerSessionId) (a : SessionState)

/-- The state the session was last seen in, where that was `a` before the process at hand. -/
def seen : SessionState := ((sys.rt.find sid).map (·.state)).getD a

/-- The events that write the state of an ended session without looking at it. While the process
knows the session: a round of `run_session`, a recovery that needs an operator, and the end of a
cancellation after a retirement. While it does not: the creation of a session under its identity,
and its adoption in a state it may not come back in. At any time: a start on a journal that brings
it back in such a state. -/
def disturbs : Event → Bool
  | .call command _ => (sys.rt.find sid).isNone && match command with
      | .createSession _ => sys.rt.sessionIds.next.1=sid
      | .adoptSession session => session.id=sid && !a.returns session.state
      | _ => false
  | .resume index _ => (sys.rt.find sid).any fun s => match sys.calls[index]? with
      | some (.session run) => run.session=sid && run.pc=.round
      | some (.recovery who plan) => who=sid && plan.requiresOperator
      | some (.cancel who _ []) => who=sid && s.state=.retired
      | _ => false
  | .restart options _ w =>
      (Runtime.replayed w options sys.journal)[sid.value]?.any fun b => !a.returns b.session.state

/-- No event of the run disturbs the session, last seen in `a`. -/
def Undisturbed : SessionState → System → List Event → Prop
  | _,_,[] => True
  | a,sys,e::events =>
      sys.disturbs sid a e=false ∧ Undisturbed ((sys.apply e).seen sid a) (sys.apply e) events

/-- After every event of the run the session, where it is known, is in a state that may follow the
one it was last seen in, whether that was in this process or in one before it. -/
def Absorbed : SessionState → System → List Event → Prop
  | _,_,[] => True
  | a,sys,e::events => a.Later ((sys.apply e).seen sid a) ∧
      Absorbed ((sys.apply e).seen sid a) (sys.apply e) events

instance decidableUndisturbed (sid : CompilerSessionId) : (a : SessionState) → (sys : System) →
    (events : List Event) → Decidable (Undisturbed sid a sys events)
  | _,_,[] => isTrue trivial
  | a,sys,e::events =>
      have := decidableUndisturbed sid ((sys.apply e).seen sid a) (sys.apply e) events
      inferInstanceAs (Decidable (_ ∧ _))

instance decidableAbsorbed (sid : CompilerSessionId) : (a : SessionState) → (sys : System) →
    (events : List Event) → Decidable (Absorbed sid a sys events)
  | _,_,[] => isTrue trivial
  | a,sys,e::events =>
      have := decidableAbsorbed sid ((sys.apply e).seen sid a) (sys.apply e) events
      inferInstanceAs (Decidable (_ ∧ _))

variable {sys sid a}

theorem seen_some {s : CompilerSession} (hs : sys.rt.find sid=some s) : sys.seen sid a=s.state := by
  rw [seen,hs,Option.map_some,Option.getD_some]

theorem seen_none (hn : sys.rt.find sid=none) : sys.seen sid a=a := by
  rw [seen,hn,Option.map_none,Option.getD_none]

theorem moves_later {e : Event} {s : CompilerSession} {b : SessionState} (he : e.inProcess)
    (hs : sys.rt.find sid=some s) (ht : s.state.terminal) (h : sys.moves e sid.value s.state b)
    (hd : sys.disturbs sid a e=false) : s.state.Later b := by
  have same (hab : s.state=b) : s.state.Later b := .inl hab.symm
  have into_retired (h : b ∈ [SessionState.retired]) : s.state.Later b :=
    .inr (.inl (List.mem_singleton.1 h))
  cases e with
  | restart => exact he.elim
  | call command w =>
    cases command with
    | retireSession session reason =>
      rcases h with h | ⟨_,h⟩
      · exact same h
      · exact into_retired h
    | _ => exact same h
  | resume index w =>
    cases hc : sys.calls[index]? with
    | none =>
      simp only [moves,hc] at h
      exact same h
    | some call =>
      simp only [moves,hc] at h
      simp only [disturbs,hs,Option.any_some,hc] at hd
      cases call with
      | phase run =>
        rcases h with h | h
        · exact same h
        · exact absurd h.2.1 (SessionState.not_open ht)
      | session run =>
        obtain ⟨who,_,_,_,_,pc⟩ := run
        cases pc with
        | round =>
          have hne : who ≠ sid := by simpa using hd
          have hi : sid.value ≠ who.value := by
            intro hi
            exact hne (StrongId.ext hi.symm)
          simp only [Option.map_some,Option.getD_some,Call.moves,SessionRun.moves] at h
          split at h
          · rcases h with h | ⟨hi',_⟩
            · exact same h
            · exact absurd hi' hi
          · rcases h with h | ⟨hi',_⟩
            · exact same h
            · exact absurd hi' hi
        | waiting children =>
          rcases h with h | ⟨_,h⟩
          · exact same h
          · have ha := List.mem_singleton.1 h.2.1
            rw [ha] at ht
            cases ht
        | _ => exact same h
      | cancel session reason remaining =>
        cases remaining with
        | nil =>
          rcases h with h | ⟨hi,h⟩
          · exact same h
          · have hid : sid=session := StrongId.ext hi
            subst hid
            have hb := List.mem_singleton.1 h
            have hr : s.state ≠ .retired := by simpa using hd
            subst hb
            cases hst : s.state with
            | committed => exact .inr (.inr ⟨rfl,rfl⟩)
            | cancelled => exact .inl rfl
            | retired => exact absurd hst hr
            | _ =>
              rw [hst] at ht
              cases ht
        | cons => exact same h
      | recovery session plan =>
        rcases h with h | ⟨hi,h⟩
        · exact same h
        · have hid : sid=session := StrongId.ext hi
          subst hid
          have ho : plan.requiresOperator=false := by simpa using hd
          rw [ho] at h
          have ha := List.mem_singleton.1 h.2.1
          rw [ha] at ht
          cases ht
      | stopping =>
        rcases h with h | h
        · exact same h
        · rcases List.mem_cons.1 h.2.1 with ha | ha
          · rw [ha] at ht
            cases ht
          · rw [List.mem_singleton.1 ha] at ht
            cases ht
      | _ => exact same h

/-- A session the process did not know comes back in a state it may come back in. -/
theorem brought_later {e : Event} {s : CompilerSession} (he : e.inProcess)
    (hn : sys.rt.find sid=none) (hd : sys.disturbs sid a e=false)
    (hs : (sys.apply e).rt.find sid=some s) : a.Later s.state := by
  have hn' (w : World) : (sys.rt.facing w).find sid=none := hn
  rcases apply_brings he (by rw [hs]; rfl) with h | ⟨request,w,rfl,hrt⟩ | ⟨session,w,rfl,hrt⟩
  · rw [hn] at h
    cases h
  · rw [hrt] at hs
    have hnext := Runtime.createSession_takes (hn' w) hs
    have hnext : sys.rt.sessionIds.next.1=sid := hnext
    simp [disturbs,hn,hnext] at hd
  · rw [hrt] at hs
    obtain ⟨hid,hr⟩ := Runtime.adoptSession_new (hn' w) hs
    have hret : a.returns session.state := by simpa [disturbs,hn,hid] using hd
    exact .restarting hret hr.state

/-- A restart brings an ended session back in a state it may come back in. -/
theorem restart_later {options : RuntimeOptions} {adapters : List Adapter} {w : World}
    {s : CompilerSession} (hd : sys.disturbs sid a (.restart options adapters w)=false)
    (hs : (sys.apply (.restart options adapters w)).rt.find sid=some s) : a.Later s.state := by
  obtain ⟨b,hb,hr⟩ := (Runtime.create_spec w options adapters sys.journal).1 sid.value s hs
  simp only [disturbs,hb,Option.any_some,Bool.not_eq_false'] at hd
  exact .restarting hd hr.state

/-- One event on a session that was last seen ended. -/
theorem apply_later {e : Event} (ha : sys.seen sid a=a) (ht : a.terminal)
    (hd : sys.disturbs sid a e=false) : a.Later ((sys.apply e).seen sid a) := by
  cases hs' : (sys.apply e).rt.find sid with
  | none =>
    rw [seen_none hs']
    exact Std.Refl.refl a
  | some s' =>
    rw [seen_some hs']
    have inProcess (he : e.inProcess) : a.Later s'.state := by
      cases hs : sys.rt.find sid with
      | none => exact brought_later he hs hd hs'
      | some s =>
        rw [seen_some hs] at ha
        subst ha
        obtain ⟨t,ht',hk⟩ := (sys.apply_keeps he).sessions sid.value s hs
        cases ht'.symm.trans hs'
        exact moves_later he hs ht hk.state hd
    cases e with
    | call => exact inProcess trivial
    | resume => exact inProcess trivial
    | restart options adapters w => exact restart_later hd hs'

theorem seen_seen : sys.seen sid (sys.seen sid a)=sys.seen sid a := by
  cases hs : sys.rt.find sid with
  | none => exact seen_none hs
  | some s => rw [seen_some hs,seen_some hs]

/-- An ended session stays ended: it may be retired, and cancelled if it was COMMITTED, in every
run, through restarts and processes that do not know it, whose events do not write its state
blindly. -/
theorem absorbed_of_undisturbed {s : CompilerSession} {events : List Event}
    (hs : sys.rt.find sid=some s) (ht : s.state.terminal) (h : Undisturbed sid s.state sys events) :
    Absorbed sid s.state sys events := by
  have run {a : SessionState} (ha : sys.seen sid a=a) (ht : a.terminal)
      (h : Undisturbed sid a sys events) : Absorbed sid a sys events := by
    clear * - ha ht h
    induction events generalizing sys a with
    | nil => trivial
    | cons e events ih =>
      have hl := apply_later ha ht h.1
      exact ⟨hl,ih seen_seen (hl.terminal ht) h.2⟩
  exact run (seen_some hs) ht h

end System

namespace Sample

/-- The session with its phase committed, as another process hands it over, without the digest of
the request. -/
def bequest : CompilerSession :=
  { ((created.rt.find ⟨1⟩).getD {}).modifyPhase ⟨1⟩ fun p =>
      { p with state := .committed,commit := ⟨1⟩ } with
    state := .committed
    requestDigest := {} }

/-- A process with a journal that takes it over. -/
def inherited : System :=
  (System.boot durable [adapter] [] world).apply (.call (.adoptSession bequest) world)

/-- A process without a state directory, which does not know the session, then one that finds it in
the journal, in which it is cancelled and retired. -/
def afterlife : List Event :=
  [.restart options [adapter] world,.restart durable [adapter] world,
    .call (.cancelSession ⟨1⟩ []) world,.resume 0 world,.resume 0 world,
    .call (.retireSession ⟨1⟩ []) world]

end Sample

namespace System

theorem inherited_ended : (Sample.inherited.rt.find ⟨1⟩).map (·.state)=some .committed ∧
    Undisturbed ⟨1⟩ .committed Sample.inherited Sample.afterlife := by decide +kernel

/-- A committed session goes through two starts, is cancelled and then retired. -/
theorem absorbed_of_afterlife :
    (Sample.inherited.rt.find ⟨1⟩).map (·.state)=some .committed ∧
      Absorbed ⟨1⟩ .committed Sample.inherited Sample.afterlife := by
  obtain ⟨hstate,hundisturbed⟩ := inherited_ended
  obtain ⟨s,hs,hr⟩ := Option.map_eq_some_iff.1 hstate
  have ht : s.state.terminal := by
    rw [hr]
    rfl
  refine ⟨hstate,?_⟩
  rw [← hr] at hundisturbed ⊢
  exact absorbed_of_undisturbed hs ht hundisturbed

/-- The last round of a `run_session` makes a committed session ACTIVE. -/
theorem not_absorbed_of_runSession :
    (Sample.committed.rt.find ⟨1⟩).map (·.state)=some .committed ∧
      ¬Absorbed ⟨1⟩ .committed Sample.committed [.call (.runSession ⟨1⟩) Sample.world,
        .resume 3 Sample.world,.resume 3 Sample.world,.resume 3 Sample.world] := by decide +kernel

end System

end CompilerFabric
