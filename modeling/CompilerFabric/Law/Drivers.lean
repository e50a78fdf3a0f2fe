import CompilerFabric.Law.Keyed
import CompilerFabric.Law.Settled

namespace CompilerFabric

open Base Base.Action

/-! What a `run_session` waits for, and what the phase runs it started bring back. -/

namespace Runtime

/-- `has_committed` of the session. -/
def HasCommitted (rt : Runtime) (sid : CompilerSessionId) (pid : CompilerPhaseId) : Prop :=
  ∃ p,rt.phase sid pid=some p ∧ p.state=.committed

variable {w : World} {r : Reservation} {rt t : Runtime} {sid : CompilerSessionId}
  {pid : CompilerPhaseId}

theorem phaseStatusReport_committed (h : (rt.phaseStatusReport sid pid).state=.committed) :
    rt.HasCommitted sid pid := by
  unfold phaseStatusReport at h
  split at h
  · cases h
  · next s hs =>
    split at h
    · cases h
    · next p hp => exact ⟨p,by rw [Runtime.phase,hs,Option.bind_some,hp],h⟩

theorem publish_ok {report : ExecutionReport} {session : CompilerSession} {phase : PhaseRecord}
    {result : PhaseRunReport} (h : publish w r report session phase rt=(.ok result,t)) :
    ∃ commit candidate,t.sessions=rt.sessions.modify r.session.value fun _ =>
      (session.committedPhase phase.id commit w.now).withCandidate candidate := by
  have ⟨⟨provenance,committed,concluded⟩,t₁,hstage,h⟩ := seq_eq_ok.1 h
  have ⟨commit,candidate,hc,he⟩ := stage_ok w r hstage
  have h₁ := stage_aside w r session phase rt
  rw [hstage] at h₁
  have ⟨_,t₂,hpersist,h⟩ := seq_eq_ok.1 h
  have h₂ := persist_aside w committed t₁
  rw [hpersist] at h₂
  have ⟨_,t₃,hmodify,h⟩ := seq_eq_ok.1 h
  cases hmodify
  have ⟨_,t₄,hrelease,h⟩ := seq_eq_ok.1 h
  have h₄ := release_aside phase provenance (t₂.modifySession r.session fun _ => committed)
  rw [hrelease] at h₄
  cases h
  refine ⟨commit,candidate,h₄.sessions.trans ?_⟩
  show t₂.sessions.modify _ _=_
  rw [h₂.sessions.trans h₁.sessions,he]

/-- A commit that reports COMMITTED has made the phase so. -/
theorem commitReserved_committed {report : ExecutionReport} {result : PhaseRunReport}
    (hf : rt.estate.Keyed) (h : commitReserved w r report rt=(.ok result,t))
    (hc : result.state=.committed) : t.HasCommitted r.session r.phase := by
  obtain ⟨_,_,hget,h⟩ := seq_eq_ok.1 h
  cases hget
  obtain ⟨⟨session,phase⟩,t₁,hcommittable,h⟩ := seq_eq_ok.1 h
  obtain ⟨hcm,he⟩ := ofExcept_eq_ok.1 hcommittable
  subst he
  obtain ⟨hfound,hphase,_,_,hready⟩ := committable_ok r hcm
  have hid : phase.id=r.phase := StrongId.ext (keyed_iff.1 hf _ session hfound _ phase hphase)
  obtain ⟨_,t₂,hreprobe,h⟩ := seq_eq_ok.1 h
  have hsame := reprobe_sessions w r hreprobe
  have hfound : t₂.find r.session=some session := by rw [find_of_sessions hsame,hfound]
  obtain ⟨_,_,hget,h⟩ := seq_eq_ok.1 h
  cases hget
  split at h
  · obtain ⟨commit,candidate,hs⟩ := publish_ok h
    refine ⟨phase.committed commit w.now,?_,PhaseRecord.committed_state hready commit w.now⟩
    rw [phase_modifySession hs,if_pos rfl,hfound]
    show CompilerSession.findPhase _ r.phase=_
    rw [CompilerSession.findPhase,projected_phases,hid]
    exact (session.findPhase_modifyPhase r.phase r.phase _).trans (by rw [if_pos rfl,hphase]; rfl)
  · obtain ⟨_,_,_,h⟩ := seq_eq_ok.1 h
    obtain ⟨_,_,_,h⟩ := seq_eq_ok.1 h
    obtain ⟨_,_,_,h⟩ := seq_eq_ok.1 h
    obtain ⟨_,_,_,h⟩ := seq_eq_ok.1 h
    obtain ⟨_,_,_,h⟩ := seq_eq_ok.1 h
    obtain ⟨_,_,_,h⟩ := seq_eq_ok.1 h
    obtain ⟨_,_,_,h⟩ := seq_eq_ok.1 h
    obtain ⟨_,_,_,h⟩ := seq_eq_ok.1 h
    obtain ⟨_,_,_,h⟩ := seq_eq_ok.1 h
    cases h
    cases hc

end Runtime

namespace PhaseRun

variable {w : World} {rt : Runtime} {run : PhaseRun}

/-- The reservation a run works with is its own. -/
def named (run : PhaseRun) : Prop :=
  match run.pc with
  | .reserve => True
  | .prepare r | .execute r | .record r _ | .inspect r _ | .reproduce r _ | .verify r _
  | .refuse r _ | .validate r _ | .judge r _ | .commit r _ => run.names r

theorem named.owned (h : run.named) : run.owned := by
  unfold named at h
  unfold PhaseRun.owned
  cases hpc : run.pc with
  | reserve => trivial
  | _ =>
    rw [hpc] at h
    exact h.1

theorem Goes.named {pc : PhasePc} (hg : run.Goes w rt pc) (h : run.named) :
    { run with pc }.named := by
  unfold PhaseRun.named at h ⊢
  cases hg with
  | @reserved t r hpc hr =>
    rcases Runtime.reserve_spec w _ _ hr with ⟨_,e,he,_⟩ | ⟨_,_,_,r',hres,he⟩
    · cases he
    · rcases he with he | ⟨⟨_,he⟩,_⟩
      · cases he
        exact ⟨hres.session,hres.phase⟩
      · cases he
  | _ hpc =>
    rw [hpc] at h
    exact h

theorem after_ran {α : Type} {x : Result α × Runtime} {next : α → Runtime → Call}
    {result : Result PhaseRunReport} (h : (after x next).1=.ran result) :
    (∃ e,result=.error e) ∨ ∃ a t,x=(.ok a,t) ∧ next a t=.ran result := by
  unfold after at h
  split at h
  · exact .inr ⟨_,_,rfl,h⟩
  · cases h
    exact .inl ⟨_,rfl⟩

/-- A run that returns a committed report leaves its phase COMMITTED, or has found it so. -/
theorem step_ran {report : PhaseRunReport} (h : (run.step w rt).1=.ran (.ok report))
    (hn : run.named) (hf : rt.estate.Keyed) (hc : report.state=.committed) :
    (run.step w rt).2.HasCommitted run.session run.phase := by
  have finished {t : Runtime} {found : PhaseRunReport}
      (hx : run.finish found=.ran (.ok report))
      (hs : found.state=(t.phaseStatusReport run.session run.phase).state) : t.HasCommitted run.session run.phase := by
    cases hx
    exact Runtime.phaseStatusReport_committed (hs.symm.trans hc)
  unfold named at hn
  unfold step at h ⊢
  cases hpc : run.pc with
  | reserve =>
    rw [hpc] at h
    dsimp only at h ⊢
    split at h
    · cases h
    · dsimp only at h ⊢
      exact finished h rfl
  | prepare r =>
    rw [hpc] at h
    dsimp only at h
    split at h <;> cases h
  | execute r =>
    rw [hpc] at h
    dsimp only at h
    split at h <;> cases h
  | record r execution =>
    rw [hpc] at h
    rcases after_ran h with ⟨_,he⟩ | ⟨_,_,_,h⟩
    · cases he
    · cases h
  | inspect r execution =>
    rw [hpc] at h
    dsimp only at h ⊢
    split at h
    · split at h
      · next hstate =>
        rw [if_pos hstate]
        dsimp only at h ⊢
        exact finished h rfl
      · cases h
    · cases h
  | reproduce r execution =>
    rw [hpc] at h
    dsimp only at h
    split at h <;> cases h
  | verify r execution =>
    rw [hpc] at h
    dsimp only at h
    split at h <;> cases h
  | refuse r e =>
    rw [hpc] at h
    dsimp only
    rw [after_snd]
    rcases after_ran h with ⟨_,he⟩ | ⟨_,t,hx,h⟩
    · cases he
    · rw [hx]
      exact finished h rfl
  | validate r execution =>
    rw [hpc] at h
    dsimp only at h
    split at h <;> cases h
  | judge r execution =>
    rw [hpc] at h
    dsimp only at h ⊢
    split at h
    · cases h
    · rw [after_snd]
      rcases after_ran h with ⟨_,he⟩ | ⟨_,t,hx,h⟩
      · cases he
      rw [hx]
      split at h
      · cases h
      · split at h
        · exact finished h rfl
        · exact finished h rfl
  | commit r execution =>
    rw [hpc] at h hn
    dsimp only
    rw [after_snd]
    rcases after_ran h with ⟨_,he⟩ | ⟨committed,t,hx,h⟩
    · cases he
    · cases h
      rw [hx,← hn.1,← hn.2]
      exact Runtime.commitReserved_committed hf hx hc

theorem step_answers (run : PhaseRun) (w : World) (rt : Runtime) :
    (∃ run',(run.step w rt).1=.phase run') ∨ ∃ result,(run.step w rt).1=.ran result := by
  have after_answers {α : Type} {x : Result α × Runtime} {next : α → Runtime → Call}
      (h : ∀ a t,(∃ run',next a t=.phase run') ∨ ∃ result,next a t=.ran result) :
      (∃ run',(after x next).1=.phase run') ∨ ∃ result,(after x next).1=.ran result := by
    unfold after
    split
    · exact h _ _
    · exact .inr ⟨_,rfl⟩
  unfold step
  cases run.pc with
  | record r execution => exact after_answers fun _ _ => .inl ⟨_,rfl⟩
  | refuse r e => exact after_answers fun _ _ => .inr ⟨_,rfl⟩
  | commit r execution => exact after_answers fun _ _ => .inr ⟨_,rfl⟩
  | judge r execution =>
    dsimp only
    split
    · exact .inr ⟨_,rfl⟩
    · refine after_answers fun _ _ => ?_
      split
      · exact .inl ⟨_,rfl⟩
      · split
        · exact .inr ⟨_,rfl⟩
        · exact .inr ⟨_,rfl⟩
  | inspect r execution =>
    dsimp only
    split
    · split
      · exact .inr ⟨_,rfl⟩
      · exact .inl ⟨_,rfl⟩
    · exact .inl ⟨_,rfl⟩
  | _ =>
    dsimp only
    split
    · exact .inl ⟨_,rfl⟩
    · first | exact .inl ⟨_,rfl⟩ | exact .inr ⟨_,rfl⟩

end PhaseRun

theorem Runtime.beginRound_ready {w : World} {sid : CompilerSessionId} {rt t : Runtime}
    {phases : List CompilerPhaseId} (h : beginRound w sid rt=(.ok (.ready phases),t)) :
    ∃ s,rt.find sid=some s ∧ phases=s.readyPhases ∧ phases ≠ [] := by
  have ⟨_,_,hget,h⟩ := seq_eq_ok.1 h
  cases hget
  have ⟨s,_,hrequire,h⟩ := seq_eq_ok.1 h
  have ⟨hs,he⟩ := ofExcept_eq_ok.1 hrequire
  subst he
  have hs := (requireSession_ok sid).1 hs
  have ⟨_,_,hmodify,h⟩ := seq_eq_ok.1 h
  cases hmodify
  have ⟨_,_,hget,h⟩ := seq_eq_ok.1 h
  cases hget
  have ⟨active,_,hrequire,h⟩ := seq_eq_ok.1 h
  have ⟨ha,_⟩ := ofExcept_eq_ok.1 hrequire
  have ha : (rt.sessions.modify sid.value _)[sid.value]?=some active :=
    (requireSession_ok sid).1 ha
  rw [Std.ExtTreeMap.getElem?_modify_self] at ha
  have ⟨s',hs',ha⟩ := Option.map_eq_some_iff.1 ha
  cases hs.symm.trans hs'
  subst ha
  split at h
  · next hne =>
    cases h
    exact ⟨s,hs,rfl,hne⟩
  · split at h
    · cases h
    · have ⟨_,_,_,h⟩ := seq_eq_ok.1 h
      cases h

theorem ok_of_mapM {α : Type} {results : List (Result α)} {reports : List α}
    (h : results.mapM id=.ok reports) {result : Result α} (hr : result ∈ results) :
    ∃ report ∈ reports,result=.ok report := by
  induction results generalizing reports with
  | nil => cases hr
  | cons x xs ih =>
    simp only [List.mapM_cons,do_eq_ok] at h
    have ⟨report,hx,rest,hxs,he⟩ := h
    cases he
    rcases List.mem_cons.1 hr with rfl | hr
    · exact ⟨report,List.mem_cons_self,hx⟩
    · have ⟨found,hm,hf⟩ := ih hxs hr
      exact ⟨found,List.mem_cons_of_mem report hm,hf⟩

namespace SessionRun

variable {w : World} {calls : List Call} {rt : Runtime} {run run' : SessionRun}

/-- What the children of a round have returned is what the round collects. -/
theorem mem_collected {children : List Nat} {results : List (Result PhaseRunReport)} {c : Nat}
    (h : collected calls children=some results) (hc : c ∈ children) :
    ∃ result ∈ results,calls[c]?=some (.ran result) := by
  unfold collected at h
  induction children generalizing results with
  | nil => cases hc
  | cons child children ih =>
    rw [List.mapM_cons] at h
    have ⟨result,hfirst,h⟩ := Option.bind_eq_some_iff.1 h
    have ⟨rest,hrest,h⟩ := Option.bind_eq_some_iff.1 h
    cases h
    rcases List.mem_cons.1 hc with rfl | hc
    · refine ⟨result,List.mem_cons_self,?_⟩
      split at hfirst
      · next ran hran =>
        cases hfirst
        exact hran
      · cases hfirst
    · have ⟨found,hm,hf⟩ := ih hrest hc
      exact ⟨found,List.mem_cons_of_mem result hm,hf⟩

/-- Where the next locked part of a `run_session` leads, if it goes on. -/
inductive Goes (w : World) (calls : List Call) (rt : Runtime) (run : SessionRun) :
    SessionRun → Prop
  | limited {s : CompilerSession} {limit : Nat} (hpc : run.pc=.limit)
      (hs : rt.find run.session=some s) (hl : 0<limit) :
      Goes w calls rt run { run with parallelLimit := limit,pc := .ceiling }
  | bounded {s : CompilerSession} (retries : Nat) (hpc : run.pc=.ceiling)
      (hs : rt.find run.session=some s) : Goes w calls rt run { run with
        iterationCeiling := s.plan.nodes.length*(retries+2)+16,pc := .round }
  | ready {phases : List CompilerPhaseId} {t : Runtime} (hpc : run.pc=.round)
      (h : Runtime.beginRound w run.session rt=(.ok (.ready phases),t)) :
      Goes w calls rt run { run with
        iterations := run.iterations+1
        pc := .waiting ((List.range (phases.take (min run.parallelLimit phases.length)).length).map
          (calls.length+·)) }
  | complete (hpc : run.pc=.round) :
      Goes w calls rt run { run with iterations := run.iterations+1,pc := .finish }
  | waits {children : List Nat} (hpc : run.pc=.waiting children) : Goes w calls rt run run
  | returned {children : List Nat} {results : List (Result PhaseRunReport)}
      {reports : List PhaseRunReport} {outcome : CompileOutcome} (hpc : run.pc=.waiting children)
      (hc : collected calls children=some results) (hr : results.mapM id=.ok reports)
      (hall : ∀ report ∈ reports,report.state=.committed) :
      Goes w calls rt run { run with outcome,pc := .round }

theorem step_session (h : (run.step w calls rt).1=.session run') : run.Goes w calls rt run' := by
  unfold step at h
  cases hpc : run.pc with
  | limit =>
    rw [hpc] at h
    dsimp only at h
    split at h
    · cases h
    · next hf =>
      have ⟨s,hs⟩ : ∃ s,rt.find run.session=some s := by
        cases hs : rt.find run.session with
        | none => exact absurd (by rw [hs]; rfl) hf
        | some s => exact ⟨s,rfl⟩
      cases h
      refine .limited hpc hs ?_
      cases (rt.find run.session).bind fun s => rt.policies.find s.policy.id with
      | none => exact Nat.one_pos
      | some policy =>
        rw [Option.map_some,Option.getD_some]
        split
        · exact Nat.lt_of_lt_of_le Nat.one_pos (Nat.le_max_left _ _)
        · exact Nat.one_pos
  | ceiling =>
    rw [hpc] at h
    dsimp only at h
    split at h
    · cases h
    · next s hs =>
      cases h
      exact .bounded _ hpc hs
  | round =>
    rw [hpc] at h
    dsimp only at h
    split at h
    · cases h
    · split at h
      · cases h
      · cases h
        exact .complete hpc
      · cases h
      · next hb =>
        cases h
        exact .ready hpc hb
  | waiting children =>
    rw [hpc] at h
    dsimp only at h
    split at h
    · cases h
      exact .waits hpc
    · next results hc =>
      split at h
      · cases h
      · next reports hr =>
        split at h
        · next hall =>
          cases h
          refine .returned hpc hc hr fun report hm => ?_
          have hnil := List.getLast?_eq_none_iff.1 hall
          simpa using List.filter_eq_nil_iff.1 hnil report hm
        · cases h
  | finish =>
    rw [hpc] at h
    dsimp only at h
    split at h <;> cases h

/-- A round that goes on has started a phase run for each phase of its batch. -/
theorem step_ready {phases : List CompilerPhaseId} {t : Runtime} (hpc : run.pc=.round)
    (hb : Runtime.beginRound w run.session rt=(.ok (.ready phases),t))
    (h : (run.step w calls rt).1=.session run') : (run.step w calls rt).2.1=
      (phases.take (min run.parallelLimit phases.length)).map fun phase =>
        .phase { session := run.session,phase } := by
  unfold step at h ⊢
  rw [hpc] at h ⊢
  dsimp only at h ⊢
  rw [hb] at h ⊢
  split at h
  · cases h
  · next hceiling =>
    rw [if_neg hceiling]

theorem step_answers (run : SessionRun) (w : World) (calls : List Call) (rt : Runtime) :
    (∃ run',(run.step w calls rt).1=.session run') ∨
    ∃ result,(run.step w calls rt).1=.drove result := by
  unfold step
  cases run.pc with
  | round =>
    dsimp only
    split
    · exact .inr ⟨_,rfl⟩
    · split
      · exact .inr ⟨_,rfl⟩
      · exact .inl ⟨_,rfl⟩
      · exact .inr ⟨_,rfl⟩
      · exact .inl ⟨_,rfl⟩
  | waiting children =>
    dsimp only
    split
    · exact .inl ⟨_,rfl⟩
    · split
      · exact .inr ⟨_,rfl⟩
      · split
        · exact .inl ⟨_,rfl⟩
        · exact .inr ⟨_,rfl⟩
  | limit | ceiling | finish =>
    dsimp only
    split
    · exact .inr ⟨_,rfl⟩
    · first | exact .inl ⟨_,rfl⟩ | exact .inr ⟨_,rfl⟩

/-- What a driver goes by: at least one phase at a time, and a ceiling that its session's plan
stays below. -/
structure Sound (rt : Runtime) (run : SessionRun) : Prop where
  limit : 0<run.parallelLimit
  start : run.pc=.limit ∨ run.pc=.ceiling → run.iterations=0
  ceiling : run.pc ≠ .limit → run.pc ≠ .ceiling → ∃ s,rt.find run.session=some s ∧
    s.plan.nodes.length*2+16 ≤ run.iterationCeiling

theorem Goes.sound (hg : run.Goes w calls rt run') (h : run.Sound rt) : run'.Sound rt := by
  cases hg with
  | limited hpc hs hl => exact ⟨hl,fun _ => h.start (.inl hpc),fun _ hne => absurd rfl hne⟩
  | @bounded s retries hpc hs =>
    refine ⟨h.limit,fun hpc => ?_,fun _ _ => ⟨s,hs,?_⟩⟩
    · rcases hpc with hpc | hpc <;> cases hpc
    · exact Nat.add_le_add_right (Nat.mul_le_mul_left _ (Nat.le_add_left _ _)) _
  | ready hpc hb =>
    refine ⟨h.limit,fun hpc => ?_,fun _ _ => ?_⟩
    · rcases hpc with hpc | hpc <;> cases hpc
    · exact h.ceiling (by rw [hpc]; exact nofun) (by rw [hpc]; exact nofun)
  | complete hpc =>
    refine ⟨h.limit,fun hpc => ?_,fun _ _ => ?_⟩
    · rcases hpc with hpc | hpc <;> cases hpc
    · exact h.ceiling (by rw [hpc]; exact nofun) (by rw [hpc]; exact nofun)
  | waits hpc => exact h
  | returned hpc hc hr hall =>
    refine ⟨h.limit,fun hpc => ?_,fun _ _ => ?_⟩
    · rcases hpc with hpc | hpc <;> cases hpc
    · exact h.ceiling (by rw [hpc]; exact nofun) (by rw [hpc]; exact nofun)

theorem Sound.keeps {σ : UInt64 → SessionState → SessionState → Prop}
    {P : PhaseRecord → PhaseRecord → Prop} {t : Runtime} (h : run.Sound rt)
    (hk : Runtime.Keeps σ P rt t) : run.Sound t := by
  refine ⟨h.limit,h.start,fun hl hc => ?_⟩
  have ⟨s,hs,hle⟩ := h.ceiling hl hc
  have ⟨s',hs',he⟩ := hk.sessions run.session.value s hs
  have hplan : s'.plan=s.plan := congrArg (·.2.1) he.binding
  exact ⟨s',hs',by rw [hplan]; exact hle⟩

end SessionRun

theorem Command.start_session {sys : System} {w : World} {command : Command}
    {run : SessionRun} (h : (command.start w (sys.rt.facing w)).1=.session run) :
    run.pc=.limit ∧ run.iterations=0 ∧ run.parallelLimit=1 := by
  cases command with
  | runSession session =>
    cases h
    exact ⟨rfl,rfl,rfl⟩
  | retryPhase | commitPhase | cancelSession | applyRecovery | shutdown =>
    simp only [Command.start] at h
    split at h <;> cases h
  | _ => cases h

theorem Event.of_resumes {e : Event} {n : Nat} (h : e.resumes n) : ∃ w,e=.resume n w := by
  cases e with
  | resume index w => exact ⟨w,by rw [of_decide_eq_true h]⟩
  | call command w => cases h
  | restart options adapters w => cases h

/-- An event of the process, which hands over no session with misfiled phases. -/
def Event.regular (e : Event) : Prop := e.inProcess ∧ e.keyed

namespace System

variable {sys : System} {e : Event} {events : List Event} {i c d : Nat} {w : World}

theorem Starts.named {run : PhaseRun} (h : sys.Starts e run) : run.named := by
  cases h with
  | run => trivial
  | round => trivial
  | retry => trivial
  | @direct session phase generation invocation w r h =>
    simp only [Runtime.commitPhase,do_eq_ok] at h
    obtain ⟨s,_,p,_,_,_,_,_,h⟩ := h
    split at h
    · obtain ⟨_,_,h⟩ := do_eq_ok.1 h
      cases h
    · obtain ⟨_,_,h⟩ := do_eq_ok.1 h
      cases h
      exact ⟨rfl,rfl⟩

/-- A driver in progress was where it is, has just taken its next locked part, or is new. -/
theorem apply_sessionRun {run : SessionRun} (h : (sys.apply e).calls[i]?=some (.session run)) :
    sys.calls[i]?=some (.session run) ∨
    (∃ w before,sys.up ∧ e=.resume i w ∧ sys.calls[i]?=some (.session before) ∧
      before.Goes w sys.calls (sys.rt.facing w) run) ∨
    sys.up ∧ run.pc=.limit ∧ run.iterations=0 ∧ run.parallelLimit=1 := by
  cases e with
  | restart options adapters w => cases h
  | call command w =>
    simp only [apply] at h
    split at h
    · next hu =>
      rw [List.getElem?_append] at h
      split at h
      · exact .inl h
      · have hm := List.mem_singleton.1 (List.mem_of_getElem? h)
        exact .inr (.inr ⟨hu,Command.start_session hm.symm⟩)
    · exact .inl h
  | resume index w =>
    simp only [apply] at h
    split at h
    · next hu =>
      have stay {x : Call × Runtime} (hx : x.1 ≠ .session run)
          (h : (sys.put index x).calls[i]?=some (.session run)) :
          sys.calls[i]?=some (.session run) := by
        rcases getElem?_set_or h with h | ⟨_,h⟩
        · exact h
        · exact absurd h hx
      cases hc : sys.calls[index]? with
      | none =>
        rw [hc] at h
        exact .inl h
      | some call =>
        rw [hc] at h
        cases call with
        | phase before =>
          refine .inl (stay ?_ h)
          intro hx
          rcases before.step_answers w (sys.rt.facing w) with ⟨_,he⟩ | ⟨_,he⟩
          · cases he.symm.trans hx
          · cases he.symm.trans hx
        | session before =>
          simp only [resume] at h
          rw [List.getElem?_append] at h
          split at h
          · rcases getElem?_set_or h with hs | ⟨rfl,hs⟩
            · exact .inl hs
            · exact .inr (.inl ⟨w,before,hu,rfl,hc,SessionRun.step_session hs⟩)
          · obtain ⟨phase,hp⟩ := SessionRun.step_started (List.mem_of_getElem? h)
            cases hp
        | cancel session reason remaining =>
          cases remaining with
          | nil => exact .inl (stay (by simp [ended]) h)
          | cons phase rest => exact .inl (stay (by simp) h)
        | recovery session plan => exact .inl (stay (by simp) h)
        | stopping => exact .inl (stay (by simp [ended]) h)
        | ran | drove | created | recovered | ended => exact .inl h
    · exact .inl h

/-- What holds of every state of a process: its phases are filed, and its calls go by what is
theirs. -/
structure Regular (sys : System) : Prop where
  up : ∀ (i : Nat) call,sys.calls[i]?=some call → sys.up
  named : ∀ (i : Nat) (run : PhaseRun),sys.calls[i]?=some (.phase run) → run.named
  sound : ∀ (i : Nat) (run : SessionRun),sys.calls[i]?=some (.session run) → run.Sound sys.rt
  keyed : sys.rt.estate.Keyed

theorem Regular.staffed (h : sys.Regular) : sys.Staffed :=
  fun i run hc => (h.named i run hc).owned

theorem apply_up (he : e.inProcess) : (sys.apply e).up=sys.up := by
  cases e with
  | restart options adapters w => exact he.elim
  | call command w =>
    simp only [apply]
    split <;> rfl
  | resume index w =>
    simp only [apply]
    split
    · cases sys.calls[index]? with
      | none => rfl
      | some call =>
        cases call with
        | cancel session reason remaining => cases remaining <;> rfl
        | _ => rfl
    · rfl

theorem apply_down (he : e.inProcess) (hd : sys.up=false) : sys.apply e=sys := by
  cases e with
  | restart options adapters w => exact he.elim
  | call command w => simp [apply,hd]
  | resume index w => simp [apply,hd]

theorem Regular.apply (h : sys.Regular) (he : e.regular) : (sys.apply e).Regular := by
  refine ⟨?_,?_,?_,apply_keyed h.staffed he.1 he.2 h.keyed⟩
  · intro i call hc
    rw [apply_up he.1]
    by_contra hd
    rw [apply_down he.1 (by simpa using hd)] at hc
    exact hd (h.up i call hc)
  · intro i run hc
    rcases apply_phaseRun hc with hc | ⟨w,before,_,_,hb,hr,hg⟩ | ⟨_,_,hs⟩
    · exact h.named i run hc
    · rw [hr]
      exact hg.named (h.named i before hb)
    · exact hs.named
  · intro i run hc
    have hk := sys.apply_keeps he.1
    rcases apply_sessionRun hc with hc | ⟨w,before,_,_,hb,hg⟩ | ⟨_,hpc,hn,hl⟩
    · exact (h.sound i run hc).keeps hk
    · have hs := h.sound i before hb
      have hf : before.Sound (sys.rt.facing w) := ⟨hs.limit,hs.start,hs.ceiling⟩
      have hrun := hg.sound hf
      have hrun : run.Sound sys.rt := ⟨hrun.limit,hrun.start,hrun.ceiling⟩
      exact hrun.keeps hk
    · exact ⟨by rw [hl]; exact Nat.one_pos,fun _ => hn,fun hne => absurd hpc hne⟩

theorem Regular.run (h : sys.Regular) (he : ∀ e ∈ events,e.regular) : (sys.run events).Regular := by
  induction events generalizing sys with
  | nil => exact h
  | cons e events ih =>
    have ⟨hfirst,hrest⟩ := List.forall_mem_cons.1 he
    exact ih (h.apply hfirst) hrest

theorem boot_regular (options : RuntimeOptions) (adapters : List Adapter) (file : Bytes)
    (w : World) : (boot options adapters file w).Regular := by
  have none {i : Nat} {call : Call} (hc : (boot options adapters file w).calls[i]?=some call) :
      False := by cases hc
  exact ⟨fun _ _ hc => (none hc).elim,fun _ _ hc => (none hc).elim,fun _ _ hc => (none hc).elim,
    Runtime.create_keyed options adapters file⟩

/-- A call that has returned stays as it is. -/
theorem apply_returned {call : Call} (he : e.inProcess) (hc : sys.calls[c]?=some call)
    (hr : (∃ result,call=.ran result) ∨ ∃ result,call=.drove result) :
    (sys.apply e).calls[c]?=some call := by
  cases hresumes : e.resumes c with
  | false => exact apply_other he hresumes hc
  | true =>
    obtain ⟨w,rfl⟩ := Event.of_resumes hresumes
    simp only [apply]
    split
    · rw [hc]
      rcases hr with ⟨result,rfl⟩ | ⟨result,rfl⟩
      · exact hc
      · exact hc
    · exact hc

theorem run_returned_call {call : Call} (he : ∀ e ∈ events,e.inProcess)
    (hc : sys.calls[c]?=some call)
    (hr : (∃ result,call=.ran result) ∨ ∃ result,call=.drove result) :
    (sys.run events).calls[c]?=some call := by
  induction events generalizing sys with
  | nil => exact hc
  | cons e events ih =>
    have ⟨hfirst,hrest⟩ := List.forall_mem_cons.1 he
    exact ih hrest (apply_returned hfirst hc hr)

theorem inProcess_of_regular (he : ∀ e ∈ events,e.regular) : ∀ e ∈ events,e.inProcess :=
  fun e hm => (he e hm).1

/-- A phase run that comes back with a committed report has seen its phase COMMITTED. -/
theorem child_commits {run : PhaseRun} {report : PhaseRunReport} (h : sys.Regular)
    (he : ∀ e ∈ events,e.regular) (hc : sys.calls[c]?=some (.phase run))
    (hr : (sys.run events).calls[c]?=some (.ran (.ok report))) (hs : report.state=.committed) :
    ∃ k ≤ events.length,(sys.run (events.take k)).rt.HasCommitted run.session run.phase := by
  induction events generalizing sys run with
  | nil => cases hc.symm.trans hr
  | cons e events ih =>
    have ⟨hfirst,hrest⟩ := List.forall_mem_cons.1 he
    have later {run' : PhaseRun} (hsession : run'.session=run.session)
        (hphase : run'.phase=run.phase) (hc : (sys.apply e).calls[c]?=some (.phase run')) :
        ∃ k ≤ (e::events).length,
          (sys.run ((e::events).take k)).rt.HasCommitted run.session run.phase := by
      have ⟨k,hk,hcommitted⟩ := ih (h.apply hfirst) hrest hc hr
      rw [hsession,hphase] at hcommitted
      exact ⟨k+1,Nat.succ_le_succ hk,hcommitted⟩
    cases hresumes : e.resumes c with
    | false => exact later rfl rfl (apply_other hfirst.1 hresumes hc)
    | true =>
      obtain ⟨w,rfl⟩ := Event.of_resumes hresumes
      have ⟨hrt,hcall⟩ := @apply_resume sys c w run (h.up _ _ hc) hc
      rcases run.step_answers w (sys.rt.facing w) with ⟨run',hp⟩ | ⟨result,hp⟩
      · have ⟨he,_⟩ := PhaseRun.step_phase hp
        rw [hp] at hcall
        refine later ?_ ?_ hcall
        · rw [he]
        · rw [he]
      · rw [hp] at hcall
        have hstay := run_returned_call (inProcess_of_regular hrest) hcall (.inl ⟨_,rfl⟩)
        cases hstay.symm.trans hr
        refine ⟨1,Nat.succ_le_succ (Nat.zero_le _),?_⟩
        show (sys.apply (.resume c w)).rt.HasCommitted run.session run.phase
        rw [hrt]
        exact run.step_ran hp (h.named c run hc) h.keyed hs

theorem apply_driver {run : SessionRun} (hu : sys.up) (hc : sys.calls[d]?=some (.session run)) :
    (sys.apply (.resume d w)).calls=
      sys.calls.set d (run.step w sys.calls (sys.rt.facing w)).1++
        (run.step w sys.calls (sys.rt.facing w)).2.1 := by
  simp only [apply,hu,hc,if_true]
  rfl

/-- The call of a driver after its next locked part. -/
theorem apply_driver_self {run : SessionRun} (hu : sys.up)
    (hc : sys.calls[d]?=some (.session run)) : (sys.apply (.resume d w)).calls[d]?=
      some (run.step w sys.calls (sys.rt.facing w)).1 := by
  have ⟨hlt,_⟩ := List.getElem?_eq_some_iff.1 hc
  rw [apply_driver hu hc,List.getElem?_append_left (by simpa using hlt)]
  exact List.getElem?_set_self hlt

/-- A driver that is still in progress later has gone on. -/
theorem driver_goes {run run' : SessionRun} (h : sys.Regular) (he : ∀ e ∈ events,e.regular)
    (hd : sys.calls[d]?=some (.session run))
    (hr : ((sys.apply (.resume d w)).run events).calls[d]?=some (.session run')) :
    ∃ next,(run.step w sys.calls (sys.rt.facing w)).1=.session next ∧
      (sys.apply (.resume d w)).calls[d]?=some (.session next) := by
  have hself := @apply_driver_self sys d w run (h.up _ _ hd) hd
  rcases run.step_answers w sys.calls (sys.rt.facing w) with ⟨next,hstep⟩ | ⟨result,hstep⟩
  · rw [hstep] at hself
    exact ⟨next,hstep,hself⟩
  · rw [hstep] at hself
    have hstay := run_returned_call (inProcess_of_regular he) hself (.inr ⟨_,rfl⟩)
    cases hstay.symm.trans hr

end System

end CompilerFabric
