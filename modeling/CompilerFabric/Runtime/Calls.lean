import CompilerFabric.Runtime.Steps

namespace CompilerFabric

open Base Base.Action

namespace PhaseRun

variable {w : World} {rt : Runtime} {run run' : PhaseRun} {r : Reservation}
  {report : ExecutionReport}

/-- Where the next locked part of a run leads, if the run goes on. -/
inductive Goes (w : World) (rt : Runtime) (run : PhaseRun) : PhasePc → Prop
  | reserved {t : Runtime} {r : Reservation} (hpc : run.pc=.reserve)
      (h : Runtime.reserve w run.session run.phase run.isRetry rt=(.ok r,t)) : Goes w rt run (.prepare r)
  | prepared {t : Runtime} {r : Reservation} (hpc : run.pc=.prepare r)
      (h : Runtime.prepare w r rt=(.ok (),t)) : Goes w rt run (.execute r)
  | unprepared {t : Runtime} {r : Reservation} {e : Status} (hpc : run.pc=.prepare r)
      (h : Runtime.prepare w r rt=(.error e,t)) :
      Goes w rt run (.record r (Runtime.unlaunched r e))
  | unexecuted {r : Reservation} {e : Status} (hpc : run.pc=.execute r)
      (h : w.execution=.error e) :
      Goes w rt run (.record r { status := e.code,detail := e.message
                                 workspaceRoot := r.workspace.root
                                 workspaceMarker := r.workspace.markerDigest })
  | executed {r : Reservation} {report : ExecutionReport} (hpc : run.pc=.execute r)
      (h : w.execution=.ok report) : Goes w rt run (.record r report)
  | recorded {t : Runtime} {r : Reservation} {report : ExecutionReport}
      (hpc : run.pc=.record r report)
      (h : Runtime.recordExecution w r (rt.withDiagnostics w r report) rt=(.ok (),t)) :
      Goes w rt run (.inspect r (rt.withDiagnostics w r report))
  | inspected {r : Reservation} {report : ExecutionReport} (hpc : run.pc=.inspect r report)
      (h : ∀ p,rt.phase run.session run.phase=some p → p.state ≠ .failed) :
      Goes w rt run (.reproduce r report)
  | required {r : Reservation} {report : ExecutionReport} (hpc : run.pc=.reproduce r report)
      (h : rt.reproducibilityRequired run.session=true) : Goes w rt run (.verify r report)
  | waived {r : Reservation} {report : ExecutionReport} (hpc : run.pc=.reproduce r report)
      (h : rt.reproducibilityRequired run.session=false) : Goes w rt run (.validate r report)
  | verified {r : Reservation} {report : ExecutionReport} (hpc : run.pc=.verify r report)
      (h : rt.reproducibilityVerify w r report.outputs=.ok ()) : Goes w rt run (.validate r report)
  | diverged {r : Reservation} {report : ExecutionReport} {e : Status}
      (hpc : run.pc=.verify r report) (h : rt.reproducibilityVerify w r report.outputs=.error e) :
      Goes w rt run (.refuse r e)
  | validated {r : Reservation} {report : ExecutionReport} (hpc : run.pc=.validate r report)
      (h : rt.beginValidation r=.ok ()) : Goes w rt run (.judge r report)
  | judged {t : Runtime} {r : Reservation} {report : ExecutionReport}
      {evidence : ValidationEvidence} (hpc : run.pc=.judge r report)
      (hw : w.evidence=.ok evidence) (h : Runtime.applyEvidence w r evidence rt=(.ok (),t))
      (ha : evidence.accepted=true) : Goes w rt run (.commit r report)

theorem after_phase {α : Type} {x : Result α × Runtime} {next : α → Runtime → Call}
    (h : (after x next).1=.phase run) : ∃ a t,x=(.ok a,t) ∧ next a t=.phase run := by
  unfold after at h
  split at h
  · exact ⟨_,_,rfl,h⟩
  · cases h

/-- A run that goes on is the same run, further on. -/
theorem step_phase (h : (run.step w rt).1=.phase run') :
    run'={ run with pc := run'.pc } ∧ run.Goes w rt run'.pc := by
  have on {pc : PhasePc} (h : run.goto pc=.phase run') (hg : run.Goes w rt pc) :
      run'={ run with pc := run'.pc } ∧ run.Goes w rt run'.pc := by
    cases h
    exact ⟨rfl,hg⟩
  unfold step at h
  cases hpc : run.pc with
  | reserve =>
    rw [hpc] at h
    dsimp only at h
    split at h
    · next hr => exact on h (.reserved hpc hr)
    · cases h
  | prepare r =>
    rw [hpc] at h
    dsimp only at h
    split at h
    · next hp => exact on h (.prepared hpc hp)
    · next hp => exact on h (.unprepared hpc hp)
  | execute r =>
    rw [hpc] at h
    dsimp only at h
    split at h
    · next he => exact on h (.unexecuted hpc he)
    · next he => exact on h (.executed hpc he)
  | record r report =>
    rw [hpc] at h
    have ⟨_,_,hx,h⟩ := after_phase h
    exact on h (.recorded hpc hx)
  | inspect r report =>
    rw [hpc] at h
    dsimp only at h
    split at h
    · next session phase hf =>
      split at h
      · cases h
      · next hs =>
        refine on h (.inspected hpc fun p hp => ?_)
        have ⟨s,hs',hm⟩ := Option.bind_eq_some_iff.1 hf
        have ⟨q,hq,he⟩ := Option.map_eq_some_iff.1 hm
        have hfound : rt.phase run.session run.phase=some q := Option.bind_eq_some_iff.2 ⟨s,hs',hq⟩
        rw [hfound] at hp
        cases hp
        cases he
        exact hs
    · next hf =>
      refine on h (.inspected hpc fun p hp => ?_)
      have ⟨s,hs,hq⟩ := Option.bind_eq_some_iff.1 hp
      rw [hs] at hf
      simp [hq] at hf
  | reproduce r report =>
    rw [hpc] at h
    dsimp only at h
    split at h
    · next hr => exact on h (.required hpc hr)
    · next hr => exact on h (.waived hpc (by simpa using hr))
  | verify r report =>
    rw [hpc] at h
    dsimp only at h
    split at h
    · next hv => exact on h (.verified hpc hv)
    · next hv => exact on h (.diverged hpc hv)
  | refuse r e =>
    rw [hpc] at h
    have ⟨_,_,_,h⟩ := after_phase h
    cases h
  | validate r report =>
    rw [hpc] at h
    dsimp only at h
    split at h
    · next hv => exact on h (.validated hpc hv)
    · cases h
  | judge r report =>
    rw [hpc] at h
    dsimp only at h
    split at h
    · cases h
    · next evidence he =>
      have ⟨_,_,hx,h⟩ := after_phase h
      split at h
      · next ha => exact on h (.judged hpc he hx ha)
      · split at h <;> cases h
  | commit r report =>
    rw [hpc] at h
    have ⟨_,_,_,h⟩ := after_phase h
    cases h

end PhaseRun

namespace SessionRun

/-- The calls a round of `run_session` starts are plain phase runs of its session. -/
theorem step_started {w : World} {run : SessionRun} {calls : List Call} {rt : Runtime} {call : Call}
    (h : call ∈ (run.step w calls rt).2.1) :
    ∃ phase,call=.phase { session := run.session,phase } := by
  unfold step at h
  cases hpc : run.pc with
  | round =>
    rw [hpc] at h
    dsimp only at h
    split at h
    · cases h
    · split at h
      · cases h
      · cases h
      · cases h
      · have ⟨phase,_,he⟩ := List.mem_map.1 h
        exact ⟨phase,he.symm⟩
  | waiting children =>
    rw [hpc] at h
    dsimp only at h
    split at h
    · cases h
    · split at h
      · cases h
      · split at h <;> cases h
  | limit | ceiling | finish =>
    rw [hpc] at h
    dsimp only at h
    split at h <;> cases h

theorem step_not_phase {w : World} {run : SessionRun} {calls : List Call} {rt : Runtime}
    {run' : PhaseRun} : (run.step w calls rt).1 ≠ .phase run' := by
  intro h
  unfold step at h
  cases hpc : run.pc with
  | round =>
    rw [hpc] at h
    dsimp only at h
    split at h
    · cases h
    · split at h <;> cases h
  | waiting children =>
    rw [hpc] at h
    dsimp only at h
    split at h
    · cases h
    · split at h
      · cases h
      · split at h <;> cases h
  | limit | ceiling | finish =>
    rw [hpc] at h
    dsimp only at h
    split at h <;> cases h

end SessionRun

/-- How a phase run is started: by its caller, by a round of `run_session`, by a retry that was
permitted or by a `commit_phase` that goes ahead. -/
inductive System.Starts (sys : System) : Event → PhaseRun → Prop
  | run (session : CompilerSessionId) (phase : CompilerPhaseId) (w : World) :
      Starts sys (.call (.runPhase session phase) w) { session,phase }
  | round {index : Nat} {w : World} {run : SessionRun} (phase : CompilerPhaseId)
      (h : sys.calls[index]?=some (.session run)) :
      Starts sys (.resume index w) { session := run.session,phase }
  | retry {session : CompilerSessionId} {phase : CompilerPhaseId} {w : World}
      {decision : RetryDecision} {t : Runtime}
      (h : Runtime.beginRetry session phase (sys.rt.facing w)=(.ok (decision,none),t)) :
      Starts sys (.call (.retryPhase session phase) w)
        { session,phase,isRetry := true,retry := some decision }
  | direct {session : CompilerSessionId} {phase : CompilerPhaseId}
      {generation : CompilerPhaseGeneration} {invocation : Ref .invocation} {w : World}
      {r : Reservation}
      (h : (sys.rt.facing w).commitPhase session phase generation invocation=.ok (.proceed r)) :
      Starts sys (.call (.commitPhase session phase generation invocation) w)
        { session,phase,direct := true,pc := .validate r (directReport invocation) }

theorem Command.start_phase {sys : System} {c : Command} {w : World} {run : PhaseRun}
    (h : (c.start w (sys.rt.facing w)).1=.phase run) : sys.Starts (.call c w) run := by
  cases c with
  | runPhase session phase =>
    cases h
    exact .run session phase w
  | retryPhase session phase =>
    simp only [start] at h
    split at h
    · cases h
    · cases h
    · next hb =>
      cases h
      exact .retry hb
  | commitPhase session phase generation invocation =>
    simp only [start] at h
    split at h
    · cases h
    · cases h
    · next hb =>
      cases h
      exact .direct hb
  | cancelSession | applyRecovery | shutdown =>
    simp only [start] at h
    split at h <;> cases h
  | _ => cases h

namespace System

variable {sys : System} {e : Event} {i : Nat} {run : PhaseRun}

theorem getElem?_set_or {calls : List Call} {index i : Nat} {call call' : Call}
    (h : (calls.set index call)[i]?=some call') :
    calls[i]?=some call' ∨ index=i ∧ call=call' := by
  rw [List.getElem?_set] at h
  split at h
  · next hi =>
    split at h
    · exact .inr ⟨hi,Option.some.inj h⟩
    · cases h
  · exact .inl h

/-- A phase run in progress was where it is, has just taken its next locked part, or is new. -/
theorem apply_phaseRun (h : (sys.apply e).calls[i]?=some (.phase run)) :
    sys.calls[i]?=some (.phase run) ∨
    (∃ w before,sys.up ∧ e=.resume i w ∧ sys.calls[i]?=some (.phase before) ∧
      run={ before with pc := run.pc } ∧ before.Goes w (sys.rt.facing w) run.pc) ∨
    sys.up ∧ sys.calls.length ≤ i ∧ sys.Starts e run := by
  cases e with
  | restart options adapters w => cases h
  | call command w =>
    simp only [apply] at h
    split at h
    · next hu =>
      rw [List.getElem?_append] at h
      split at h
      · exact .inl h
      · next hi =>
        have hm := List.mem_singleton.1 (List.mem_of_getElem? h)
        exact .inr (.inr ⟨hu,Nat.le_of_not_lt hi,Command.start_phase hm.symm⟩)
    · exact .inl h
  | resume index w =>
    simp only [apply] at h
    split at h
    · next hu =>
      have stay {x : Call × Runtime} (hx : x.1 ≠ .phase run)
          (h : (sys.put index x).calls[i]?=some (.phase run)) : sys.calls[i]?=some (.phase run) := by
        rcases getElem?_set_or h with h | ⟨_,h⟩
        · exact h
        · exact absurd h hx
      cases hc : sys.calls[index]? with
      | none =>
        rw [hc] at h
        exact .inl h
      | some call =>
        rw [hc] at h
        cases call with
        | phase before =>
          rcases getElem?_set_or h with hs | ⟨rfl,hs⟩
          · exact .inl hs
          · obtain ⟨hr,hg⟩ := PhaseRun.step_phase hs
            exact .inr (.inl ⟨w,before,hu,rfl,hc,hr,hg⟩)
        | session before =>
          simp only [resume] at h
          rw [List.getElem?_append] at h
          split at h
          · rcases getElem?_set_or h with h | ⟨_,h⟩
            · exact .inl h
            · exact absurd h SessionRun.step_not_phase
          · next hi =>
            obtain ⟨phase,hp⟩ := SessionRun.step_started (List.mem_of_getElem? h)
            cases hp
            rw [List.length_set] at hi
            exact .inr (.inr ⟨hu,Nat.le_of_not_lt hi,.round phase hc⟩)
        | cancel session reason remaining =>
          cases remaining with
          | nil => exact .inl (stay (by simp [ended]) h)
          | cons phase rest => exact .inl (stay (by simp) h)
        | recovery session plan => exact .inl (stay (by simp) h)
        | stopping => exact .inl (stay (by simp [ended]) h)
        | ran | drove | created | recovered | ended => exact .inl h
    · exact .inl h

/-- The event reserves the phase, whose record was `p`. -/
structure Reserving (sys : System) (e : Event) (sid : CompilerSessionId) (pid : CompilerPhaseId)
    (p : PhaseRecord) (w : World) (run : PhaseRun) (s : CompilerSession)
    (inputs : List (Ref .intermediate)) (r : Reservation) : Prop where
  runs : sys.Runs e w run
  pc : run.pc=.reserve
  session : run.session=sid
  phase : run.phase=pid
  reserves : Runtime.Reserves w sid pid run.isRetry (sys.rt.facing w) (sys.apply e).rt s p inputs r

/-- An event of the process keeps what a phase is bound to, or reserves the phase. -/
theorem apply_record (he : e.inProcess) {sid : CompilerSessionId} {pid : CompilerPhaseId}
    {p : PhaseRecord} (hp : sys.rt.phase sid pid=some p) :
    ∃ p',(sys.apply e).rt.phase sid pid=some p' ∧ (p.Stays p' ∨
      ∃ w run s inputs r,sys.Reserving e sid pid p w run s inputs r ∧
        p'=p.reserved s r inputs run.isRetry w.now) := by
  rcases @apply_cases sys _ he with hk | ⟨w,run,hr,hpc⟩
  · obtain ⟨p',hp',hm⟩ := hk.phase hp
    exact ⟨p',hp',.inl hm.toStays⟩
  rcases hpc with hpc | ⟨r,report,hpc⟩
  · have ht := hr.reserve hpc
    cases hx : Runtime.reserve w run.session run.phase run.isRetry (sys.rt.facing w) with
    | mk result t =>
      rw [hx] at ht
      have ht : (sys.apply e).rt=t := ht
      subst ht
      rcases Runtime.reserve_spec w _ _ hx with ⟨⟨hs,_⟩,_⟩ | ⟨s,q,inputs,r,hres,_⟩
      · refine ⟨p,?_,.inl (Std.Refl.refl p)⟩
        rw [Runtime.phase,Runtime.find_of_sessions hs]
        exact hp
      · have ha := (Runtime.admission_iff _ _).1 hres.admitted
        have hsame : (sys.rt.facing w).phase sid pid=some p := hp
        by_cases hsid : run.session=sid
        · have hfound := @Runtime.phase_modifySession _ _ _ sid pid _ hres.sessions
          rw [if_pos hsid,← hsid,ha.session,Option.map_some,Option.bind_some] at hfound
          have hmod := s.findPhase_modifyPhase r.phase pid
            fun p => p.reserved s r inputs run.isRetry w.now
          have hfound : (sys.apply e).rt.phase run.session pid=_ := hfound.trans hmod
          rw [hres.phase] at hfound
          have hin : s.findPhase pid=some p := by
            obtain ⟨s',hs',hp'⟩ := Option.bind_eq_some_iff.1 hsame
            rw [← hsid,ha.session] at hs'
            rw [Option.some.inj hs']
            exact hp'
          rw [hin] at hfound
          by_cases hpid : run.phase=pid
          · rw [if_pos hpid] at hfound
            subst hsid hpid
            rw [ha.phase] at hin
            cases hin
            exact ⟨_,hfound,.inr ⟨w,run,s,inputs,r,⟨hr,hpc,rfl,rfl,hres⟩,rfl⟩⟩
          · rw [if_neg hpid] at hfound
            rw [← hsid]
            exact ⟨p,hfound,.inl (Std.Refl.refl p)⟩
        · refine ⟨p,?_,.inl (Std.Refl.refl p)⟩
          rw [Runtime.phase_modifySession hres.sessions,if_neg hsid]
          exact hp
  · have hk := Runtime.facing_keeps (Runtime.commitReserved_keeps w r report (sys.rt.facing w))
    rw [← hr.commit hpc] at hk
    obtain ⟨p',hp',hst⟩ := hk.phase hp
    exact ⟨p',hp',.inl hst⟩

/-- Every event of a run meets `c` in the state it finds. -/
def along (c : System → Event → Bool) : System → List Event → Bool
  | _,[] => true
  | sys,e::events => c sys e && along c (sys.apply e) events

theorem run_snoc (sys : System) (events : List Event) (e : Event) :
    sys.run (events++[e])=(sys.run events).apply e := by
  rw [run,List.foldl_append]
  rfl

theorem along_append {c : System → Event → Bool} {events rest : List Event} :
    along c sys (events++rest)=(along c sys events && along c (sys.run events) rest) := by
  induction events generalizing sys with
  | nil => rfl
  | cons e events ih =>
    rw [List.cons_append,along,ih,along,Bool.and_assoc]
    rfl

theorem along_snoc {c : System → Event → Bool} {events : List Event} :
    along c sys (events++[e])=(along c sys events && c (sys.run events) e) := by
  rw [along_append,along,along,Bool.and_true]

theorem along_take {c : System → Event → Bool} {events : List Event} (h : along c sys events)
    (n : Nat) : along c sys (events.take n) := by
  rw [← List.take_append_drop n events,along_append,Bool.and_eq_true] at h
  exact h.1

theorem along_at {c : System → Event → Bool} {events : List Event} (h : along c sys events)
    {n : Nat} (hn : events[n]?=some e) : c (sys.run (events.take n)) e := by
  have h := along_take h (n+1)
  rw [List.take_add_one,hn,Option.toList_some,along_snoc,Bool.and_eq_true] at h
  exact h.2

end System

end CompilerFabric
