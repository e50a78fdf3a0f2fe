import CompilerFabric.Runtime.Steps

namespace CompilerFabric

open Base Base.Action

namespace Runtime

variable (w : World) (sid : CompilerSessionId)

/-- The session is registered and admits no new authority. -/
def Closed (rt : Runtime) : Prop := ∃ s,rt.find sid=some s ∧ s.state.admitsNewAuthority=false

/-- No phase of the session is given a new attempt or generation. -/
def Unreserved (rt rt' : Runtime) : Prop := ∀ pid p,rt.phase sid pid=some p →
  ∃ q,rt'.phase sid pid=some q ∧ q.generation=p.generation ∧
    q.attempts.map (·.id)=p.attempts.map (·.id)

variable {sid}

theorem Keeps.unreserved {σ : UInt64 → SessionState → SessionState → Prop} {rt rt' : Runtime}
    (h : Keeps σ PhaseRecord.Stays rt rt') : Unreserved sid rt rt' := by
  intro pid p hp
  have ⟨q,hq,hs⟩ := h.phase hp
  exact ⟨q,hq,congrArg (·.2.1) hs.binding,hs.attempts⟩

theorem unreserved_of_find {rt rt' : Runtime} (h : rt'.find sid=rt.find sid) :
    Unreserved sid rt rt' := by
  intro pid p hp
  refine ⟨p,?_,rfl,rfl⟩
  rw [← hp,phase,phase,h]

/-- A closed session takes no reservation. -/
theorem reserve_closed {rt : Runtime} {who : CompilerSessionId} {pid : CompilerPhaseId}
    {isRetry : Bool} (h : rt.Closed sid) :
    (reserve w who pid isRetry rt).2.find sid=rt.find sid := by
  have ⟨s,hs,hc⟩ := h
  cases hr : reserve w who pid isRetry rt with
  | mk result t =>
    rcases reserve_spec w who pid hr with ⟨⟨ht,_⟩,_⟩ | ⟨_,_,_,r,hres,_⟩
    · rw [find,find,ht]
    · have hadm := (admission_iff who pid).1 hres.admitted
      have hf := hadm.session
      have ha := hadm.admits
      have hne : who ≠ sid := by
        intro he
        subst he
        cases hs.symm.trans hf
        rw [hc] at ha
        cases ha
      rw [find,hres.sessions,Std.ExtTreeMap.getElem?_modify,if_neg,find]
      intro hk
      exact hne (StrongId.ext (Std.LawfulEqCmp.eq_of_compare hk))

/-- A recovery that is refused leaves the sessions alone, unless it is the journal that refuses. -/
theorem endRecovery_refused {plan : RecoveryPlan} {rt t : Runtime} {e : Status}
    (h : endRecovery w sid plan rt=(.error e,t)) :
    t.sessions=rt.sessions ∨ rt.persistFailures<t.persistFailures := by
  rcases seq_eq h with ⟨_,hx,_⟩ | ⟨_,_,hg,h⟩
  · cases hx
  cases hg
  rcases seq_eq h with ⟨_,hx,_⟩ | ⟨_,_,hr,h⟩
  · cases (congrArg Prod.snd hx : rt=t)
    exact .inl rfl
  cases (ofExcept_eq_ok.1 hr).2
  have haside : Within Aside (applyRevalidation w plan) :=
    Within.forEach (revalidateArtifact_aside w) _
  have hv := haside rt
  have hle := (applyRevalidation_within w plan (σ := fun _ => Eq) (P := PhaseRecord.Quiet) rt).failures
  rcases seq_eq h with ⟨_,hx,_⟩ | ⟨_,t₁,hx,h⟩
  · rw [hx] at hv
    exact .inl hv.sessions
  rw [hx] at hle
  rcases seq_eq h with ⟨_,hx,_⟩ | ⟨_,_,hm,h⟩
  · cases hx
  cases hm
  rcases seq_eq h with ⟨_,hx,_⟩ | ⟨_,t₂,hx,h⟩
  · have hlt := persistSession_refused w sid hx
    exact .inr (Nat.lt_of_le_of_lt hle hlt)
  · cases h

end Runtime

namespace System

variable (sys : System) (sid : CompilerSessionId)

/-- The event completes an `apply_recovery` of the session whose plan needs no operator. -/
def recovers : Event → Bool
  | .resume index w => sys.up && match sys.calls[index]? with
      | some (.recovery who plan) => who=sid && !plan.requiresOperator &&
          (Runtime.endRecovery w who plan (sys.rt.facing w)).1.toBool
      | _ => false
  | _ => false

/-- The event begins a round of `run_session` on the session. -/
def rounds : Event → Bool
  | .resume index _ => match sys.calls[index]? with
      | some (.session run) => run.session=sid && run.pc=.round &&
          run.iterations<run.iterationCeiling
      | _ => false
  | _ => false

/-- The journal refuses the record of an `apply_recovery` that reopens the session. -/
def loses : Event → Bool
  | .resume index w => match sys.calls[index]? with
      | some (.recovery who plan) => who=sid && !plan.requiresOperator &&
          (sys.rt.find who).any (·.state=.recovering) &&
          sys.rt.persistFailures<(sys.apply (.resume index w)).rt.persistFailures
      | _ => false
  | _ => false

/-- Until the session is recovered, no event reserves a phase of it. -/
def Gated : System → List Event → Prop
  | _,[] => True
  | sys,e::events => sys.rt.Unreserved sid (sys.apply e).rt ∧
      (sys.recovers sid e ∨ Gated (sys.apply e) events)

/-- Until the session is recovered, it sees no round of `run_session` and no recovery the journal
refuses. -/
def Guarded : System → List Event → Prop
  | _,[] => True
  | sys,e::events => e.inProcess ∧ sys.rounds sid e=false ∧ sys.loses sid e=false ∧
      (sys.recovers sid e ∨ Guarded (sys.apply e) events)

variable {sys sid}

/-- What may open a closed session: a round of `run_session`, or a recovery. -/
theorem moves_closed {e : Event} {a b : SessionState} (he : e.inProcess)
    (h : sys.moves e sid.value a b) (ha : a.admitsNewAuthority=false)
    (hr : sys.rounds sid e=false) : b.admitsNewAuthority=false ∨
      ∃ index w plan,e=.resume index w ∧ sys.calls[index]?=some (.recovery sid plan) ∧
        plan.requiresOperator=false ∧ a=.recovering := by
  have same (hab : a=b) : b.admitsNewAuthority=false := hab ▸ ha
  cases e with
  | restart => exact he.elim
  | call command w =>
    cases command with
    | retireSession session reason =>
      rcases h with h | ⟨_,h⟩
      · exact .inl (same h)
      · cases List.mem_singleton.1 h
        exact .inl rfl
    | _ => exact .inl (same h)
  | resume index w =>
    cases hc : sys.calls[index]? with
    | none =>
      simp only [moves,hc] at h
      exact .inl (same h)
    | some call =>
      simp only [moves,hc] at h
      cases call with
      | phase run =>
        rcases h with h | h
        · exact .inl (same h)
        · cases h.2.2
          exact .inl rfl
      | session run =>
        obtain ⟨who,_,ceiling,iterations,_,pc⟩ := run
        cases pc with
        | round =>
          by_cases hi : ceiling < iterations+1
          · have h : changes who.value (into [.failed]) sid.value a b := by
              simpa only [Option.map_some,Option.getD_some,Call.moves,SessionRun.moves,if_pos hi]
                using h
            rcases h with h | ⟨_,h⟩
            · exact .inl (same h)
            · cases List.mem_singleton.1 h
              exact .inl rfl
          · have h : changes who.value (into [.active,.failed]) sid.value a b := by
              simpa only [Option.map_some,Option.getD_some,Call.moves,SessionRun.moves,if_neg hi]
                using h
            rcases h with h | ⟨hid,_⟩
            · exact .inl (same h)
            · have hid : sid=who := StrongId.ext hid
              subst hid
              have hlt : iterations<ceiling := by omega
              simp [rounds,hc,hlt] at hr
        | waiting children =>
          rcases h with h | ⟨_,h⟩
          · exact .inl (same h)
          · cases h.2.2
            exact .inl rfl
        | _ => exact .inl (same h)
      | cancel session reason remaining =>
        cases remaining with
        | nil =>
          rcases h with h | ⟨_,h⟩
          · exact .inl (same h)
          · cases List.mem_singleton.1 h
            exact .inl rfl
        | cons => exact .inl (same h)
      | recovery session plan =>
        rcases h with h | ⟨hi,h⟩
        · exact .inl (same h)
        · cases ho : plan.requiresOperator with
          | true =>
            rw [ho] at h
            cases List.mem_singleton.1 h
            exact .inl rfl
          | false =>
            rw [ho] at h
            have hid : sid=session := StrongId.ext hi
            subst hid
            exact .inr ⟨index,w,plan,rfl,hc,ho,List.mem_singleton.1 h.2.1⟩
      | stopping =>
        rcases h with h | h
        · exact .inl (same h)
        · cases h.2.2
          exact .inl rfl
      | _ => exact .inl (same h)

theorem apply_unreserved {e : Event} (he : e.inProcess) (hc : sys.rt.Closed sid) :
    sys.rt.Unreserved sid (sys.apply e).rt := by
  rcases apply_cases he with h | ⟨w,run,h,hpc | ⟨r,report,hpc⟩⟩
  · exact (h.mono (fun _ _ _ h => h) fun _ _ h => h.toStays).unreserved
  · rw [h.reserve hpc]
    have hc : (sys.rt.facing w).Closed sid := hc
    exact Runtime.unreserved_of_find (Runtime.reserve_closed w hc)
  · rw [h.commit hpc]
    exact (Runtime.commitReserved_keeps w r report (sys.rt.facing w)).unreserved

/-- One event before the session is recovered. -/
theorem apply_closed {e : Event} (he : e.inProcess) (hc : sys.rt.Closed sid)
    (hr : sys.rounds sid e=false) (hl : sys.loses sid e=false) :
    sys.recovers sid e ∨ (sys.apply e).rt.Closed sid := by
  have ⟨s,hs,ha⟩ := hc
  have ⟨s',hs',hk⟩ := (sys.apply_keeps he).sessions sid.value s hs
  rcases moves_closed he hk.state ha hr with h | ⟨index,w,plan,rfl,hcall,ho,hrec⟩
  · exact .inr ⟨s',hs',h⟩
  · by_cases hu : sys.up
    · have hrt : (sys.apply (.resume index w)).rt=
          (Runtime.endRecovery w sid plan (sys.rt.facing w)).2 := by
        simp only [apply,hu,if_true,hcall,resume,put]
      cases hend : Runtime.endRecovery w sid plan (sys.rt.facing w) with
      | mk result t =>
        cases result with
        | ok _ =>
          refine .inl ?_
          simp [recovers,hu,hcall,ho,hend,Except.toBool]
        | error e =>
          rw [hend] at hrt
          rcases Runtime.endRecovery_refused w hend with h | h
          · refine .inr ⟨s,?_,ha⟩
            rw [hrt,← hs]
            exact Runtime.find_of_sessions h sid
          · refine absurd hl ?_
            have hlt : sys.rt.persistFailures<t.persistFailures := h
            simp [loses,hcall,ho,hs,hrec,hrt,hlt]
    · refine .inr ?_
      simp only [apply,hu]
      exact hc

theorem gated_of_closed {events : List Event} (hc : sys.rt.Closed sid)
    (h : Guarded sid sys events) : Gated sid sys events := by
  induction events generalizing sys with
  | nil => trivial
  | cons e events ih =>
    have ⟨he,hrounds,hloses,hrest⟩ := h
    refine ⟨apply_unreserved he hc,?_⟩
    rcases hrest with hrest | hrest
    · exact .inl hrest
    · rcases apply_closed he hc hrounds hloses with hrec | hc
      · exact .inl hrec
      · exact .inr (ih hc hrest)

/-- A session that needs recovery is not reserved from until an `apply_recovery` without operator
succeeds, in every run in which no round of `run_session` works on it and the journal takes the
record of its recovery. -/
theorem gated_of_guarded {s : CompilerSession} {events : List Event}
    (hs : sys.rt.find sid=some s) (hr : s.state=.recovering) (h : Guarded sid sys events) :
    Gated sid sys events := by
  refine gated_of_closed ⟨s,hs,?_⟩ h
  rw [hr]
  rfl

/-- A refused `run_phase`, then the recovery of an adopted session. -/
theorem gated_of_guarded_sample : Gated ⟨2⟩ Sample.adopted
    [.call (.runPhase ⟨2⟩ ⟨1⟩) Sample.world,.resume 3 Sample.world,
      .call (.applyRecovery ⟨2⟩) Sample.world,.resume 4 Sample.world] := by
  have hs : (Sample.adopted.rt.find ⟨2⟩).map (·.state)=some .recovering := by decide +kernel
  have ⟨s,hs,hr⟩ := Option.map_eq_some_iff.1 hs
  refine gated_of_guarded hs hr ?_
  refine ⟨trivial,by decide +kernel,by decide +kernel,.inr ?_⟩
  refine ⟨trivial,by decide +kernel,by decide +kernel,.inr ?_⟩
  refine ⟨trivial,by decide +kernel,by decide +kernel,.inr ?_⟩
  exact ⟨trivial,by decide +kernel,by decide +kernel,.inl (by decide +kernel)⟩

/-- A recovery succeeds in the course of the events. -/
def recoveredIn (sid : CompilerSessionId) : System → List Event → Bool
  | _,[] => false
  | sys,e::events => sys.recovers sid e || recoveredIn sid (sys.apply e) events

theorem Gated.next {before after : List Event} {e : Event}
    (h : Gated sid sys (before++e::after)) (hb : recoveredIn sid sys before=false) :
    (sys.run before).rt.Unreserved sid ((sys.run before).apply e).rt := by
  induction before generalizing sys with
  | nil => exact h.1
  | cons e' before ih =>
    have ⟨hr,hb⟩ := Bool.or_eq_false_iff.1 hb
    have h := h.2.resolve_left (by rw [hr]; exact Bool.false_ne_true)
    exact ih h hb

/-- A `run_session` reserves a phase of an adopted session nobody has recovered. -/
theorem not_gated_of_runSession :
    (Sample.adopted.rt.find ⟨2⟩).map (·.state)=some .recovering ∧
      ¬Gated ⟨2⟩ Sample.adopted ([.call (.runSession ⟨2⟩) Sample.world,.resume 3 Sample.world,
        .resume 3 Sample.world,.resume 3 Sample.world]++[.resume 4 Sample.world]) := by
  refine ⟨by decide +kernel,?_⟩
  intro h
  have hu := h.next (by decide +kernel)
  generalize hbefore : Sample.adopted.run [.call (.runSession ⟨2⟩) Sample.world,
    .resume 3 Sample.world,.resume 3 Sample.world,.resume 3 Sample.world]=before at hu
  have h₀ : (before.rt.phase ⟨2⟩ ⟨1⟩).map (·.attempts.length)=some 0 := by
    subst hbefore
    decide +kernel
  have h₁ : ((before.apply (.resume 4 Sample.world)).rt.phase ⟨2⟩ ⟨1⟩).map
      (·.attempts.length)=some 1 := by
    subst hbefore
    decide +kernel
  have ⟨p,hp,hlen⟩ := Option.map_eq_some_iff.1 h₀
  have ⟨q,hq,_,hids⟩ := hu ⟨1⟩ p hp
  rw [hq] at h₁
  have h₁ : q.attempts.length=1 := Option.some.inj h₁
  have hl := congrArg List.length hids
  rw [List.length_map,List.length_map,hlen,h₁] at hl
  cases hl

end System

end CompilerFabric
