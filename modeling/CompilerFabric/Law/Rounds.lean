import CompilerFabric.Law.AtMostOnce
import CompilerFabric.Law.Drivers
import CompilerFabric.Law.Plan

namespace CompilerFabric

open Base Base.Action

/-! The rounds of `run_session`: each one that does not return has committed a phase. -/

/-- COMMITTED lies behind the phase or is out of its reach. -/
def PhaseState.past (s : PhaseState) : Bool := s ∈ [committed,cancelled,fenced,retired]

/-- The phases of the plan that COMMITTED is not ahead of any more. -/
def CompilerSession.pastPhases (s : CompilerSession) : Nat :=
  s.plan.order.countP fun pid => (s.findPhase pid).any (·.state.past)

theorem PhasePlan.order_length_le (plan : PhasePlan) : plan.order.length ≤ plan.nodes.length := by
  rcases plan.built with h | h
  · rw [h]
    exact Nat.le_refl _
  · have hl := (PlanData.sound_of_build h).2.order.length_eq
    rw [List.length_map] at hl
    exact Nat.le_of_eq hl

theorem CompilerSession.pastPhases_le (s : CompilerSession) : s.pastPhases ≤ s.plan.nodes.length :=
  Nat.le_trans List.countP_le_length s.plan.order_length_le

theorem PhaseRecord.Follows.past {p q : PhaseRecord} (h : p.Follows q) (hp : p.state.past) :
    q.state.past := by
  obtain ⟨_,ts,ht⟩ := h
  refine ht.path.ends (C := fun s => s.past) ?_ hp
  intro a b
  cases a <;> cases b <;> decide

theorem countP_lt_of_mem {α : Type} {xs : List α} {p q : α → Bool} {x : α} (hx : x ∈ xs)
    (h : ∀ y,p y → q y) (hq : q x) (hp : p x=false) : xs.countP p<xs.countP q := by
  induction xs with
  | nil => cases hx
  | cons y ys ih =>
    rw [List.countP_cons,List.countP_cons]
    rcases List.mem_cons.1 hx with rfl | hx
    · have hle : ys.countP p ≤ ys.countP q := List.countP_mono_left fun y _ => h y
      simp only [hq,hp,if_true,Bool.false_eq_true,if_false]
      omega
    · have hlt := ih hx
      cases hy : p y with
      | false =>
        simp only [Bool.false_eq_true,if_false]
        omega
      | true =>
        simp only [h y hy,if_true]
        omega

namespace System

variable {sys : System} {e : Event} {events : List Event} {i c d : Nat} {w : World}

/-- A driver that waits and comes back to a round has had committed reports from all it waited
for. -/
theorem waiting_returns {run run' : SessionRun} {children : List Nat} (h : sys.Regular)
    (he : ∀ e ∈ events,e.regular) (hd : sys.calls[d]?=some (.session run))
    (hpc : run.pc=.waiting children) (hc : c ∈ children)
    (hr : (sys.run events).calls[d]?=some (.session run')) (hpc' : run'.pc=.round) :
    ∃ k ≤ events.length,∃ report : PhaseRunReport,
      (sys.run (events.take k)).calls[c]?=some (.ran (.ok report)) ∧ report.state=.committed := by
  induction events generalizing sys run with
  | nil =>
    cases hd.symm.trans hr
    rw [hpc] at hpc'
    cases hpc'
  | cons e events ih =>
    have ⟨hfirst,hrest⟩ := List.forall_mem_cons.1 he
    have later {run : SessionRun} (hpc : run.pc=.waiting children)
        (hd : (sys.apply e).calls[d]?=some (.session run)) :
        ∃ k ≤ (e::events).length,∃ report : PhaseRunReport,
          (sys.run ((e::events).take k)).calls[c]?=some (.ran (.ok report)) ∧
            report.state=.committed := by
      have ⟨k,hk,hreport⟩ := ih (h.apply hfirst) hrest hd hpc hr
      exact ⟨k+1,Nat.succ_le_succ hk,hreport⟩
    cases hresumes : e.resumes d with
    | false => exact later hpc (apply_other hfirst.1 hresumes hd)
    | true =>
      obtain ⟨w,rfl⟩ := Event.of_resumes hresumes
      have ⟨next,hstep,hself⟩ := driver_goes h hrest hd hr
      cases SessionRun.step_session hstep with
      | waits => exact later hpc hself
      | returned hpc₁ hcollected hresults hall =>
        cases hpc.symm.trans hpc₁
        have ⟨result,hm,hran⟩ := SessionRun.mem_collected hcollected hc
        have ⟨report,hreport,he⟩ := ok_of_mapM hresults hm
        rw [he] at hran
        exact ⟨0,Nat.zero_le _,report,hran,hall report hreport⟩
      | limited hpc₁ | bounded _ hpc₁ | ready hpc₁ | complete hpc₁ =>
        rw [hpc] at hpc₁
        cases hpc₁

/-- A driver past its last round has no other one. -/
theorem finish_stays {run run' : SessionRun} (h : sys.Regular) (he : ∀ e ∈ events,e.regular)
    (hd : sys.calls[d]?=some (.session run)) (hpc : run.pc=.finish)
    (hr : (sys.run events).calls[d]?=some (.session run')) : run'.pc=.finish := by
  induction events generalizing sys with
  | nil =>
    cases hd.symm.trans hr
    exact hpc
  | cons e events ih =>
    have ⟨hfirst,hrest⟩ := List.forall_mem_cons.1 he
    cases hresumes : e.resumes d with
    | false => exact ih (h.apply hfirst) hrest (apply_other hfirst.1 hresumes hd) hr
    | true =>
      obtain ⟨w,rfl⟩ := Event.of_resumes hresumes
      have ⟨next,hstep,_⟩ := driver_goes h hrest hd hr
      cases SessionRun.step_session hstep with
      | limited hpc₁ | bounded _ hpc₁ | ready hpc₁ | complete hpc₁ | waits hpc₁ | returned hpc₁ =>
        rw [hpc] at hpc₁
        cases hpc₁

/-- The phase is one of the session's plan, and COMMITTED is still ahead of it. -/
def Ahead (sys : System) (sid : CompilerSessionId) (pid : CompilerPhaseId) : Prop :=
  ∃ s p,sys.rt.find sid=some s ∧ pid ∈ s.plan.order ∧ s.findPhase pid=some p ∧ p.state.past=false

/-- A round that begins and is followed by another one has committed a phase in between. -/
theorem round_commits {run run' : SessionRun} (h : sys.Regular) (he : ∀ e ∈ events,e.regular)
    (hd : sys.calls[d]?=some (.session run)) (hpc : run.pc=.round)
    (hr : ((sys.apply (.resume d w)).run events).calls[d]?=some (.session run'))
    (hpc' : run'.pc=.round) : ∃ pid,sys.Ahead run.session pid ∧ ∃ k ≤ events.length,
      ((sys.apply (.resume d w)).run (events.take k)).rt.HasCommitted run.session pid := by
  have ⟨next,hstep,hself⟩ := driver_goes h he hd hr
  have hregular : (sys.apply (.resume d w)).Regular := h.apply ⟨trivial,trivial⟩
  have hcalls := @apply_driver sys d w run (h.up _ _ hd) hd
  have hgoes := SessionRun.step_session hstep
  cases hgoes with
  | limited hpc₁ | bounded _ hpc₁ | waits hpc₁ | returned hpc₁ =>
    rw [hpc] at hpc₁
    cases hpc₁
  | complete =>
    have hfinish := finish_stays hregular he hself rfl hr
    rw [hpc'] at hfinish
    cases hfinish
  | @ready phases t _ hb =>
    have ⟨s,hs,hphases,hne⟩ := Runtime.beginRound_ready hb
    cases phases with
    | nil => exact absurd rfl hne
    | cons pid rest =>
      have hstarted := SessionRun.step_ready hpc hb hstep
      have hlimit := (h.sound d run hd).limit
      have hbatch : (pid::rest).take (min run.parallelLimit (pid::rest).length)=
          pid::rest.take (min run.parallelLimit (pid::rest).length-1) := by
        cases hm : min run.parallelLimit (pid::rest).length with
        | zero =>
          rw [List.length_cons] at hm
          omega
        | succ n => rfl
      rw [hstarted,hbatch] at hcalls
      have hchild : (sys.apply (.resume d w)).calls[sys.calls.length]?=
          some (.phase { session := run.session,phase := pid }) := by
        rw [hcalls,List.getElem?_append_right (by simp),List.length_set,Nat.sub_self]
        rfl
      have hmem : sys.calls.length ∈ (List.range ((pid::rest).take
          (min run.parallelLimit (pid::rest).length)).length).map (sys.calls.length+·) := by
        refine List.mem_map.2 ⟨0,List.mem_range.2 ?_,Nat.add_zero _⟩
        rw [hbatch]
        exact Nat.succ_pos _
      have ⟨k,hk,report,hran,hcommitted⟩ := waiting_returns hregular he hself rfl hmem hr hpc'
      have ⟨j,_,hhas⟩ := child_commits hregular (fun e hm => he e (List.mem_of_mem_take hm))
        hchild hran hcommitted
      rw [List.take_take] at hhas
      refine ⟨pid,?_,min j k,Nat.le_trans (Nat.min_le_right j k) hk,hhas⟩
      have hready : pid ∈ s.readyPhases := hphases ▸ List.mem_cons_self
      have ⟨horder,hany⟩ := List.mem_filter.1 hready
      have ⟨p,hp,hstate⟩ := (Option.any_eq_true _ _).1 hany
      refine ⟨s,p,hs,horder,hp,?_⟩
      have ⟨hstate,_⟩ := Bool.and_eq_true_iff.1 hstate
      cases hst : p.state <;> rw [hst] at hstate <;> revert hstate <;> decide

/-- Of a session, a run keeps the plan, and no phase comes back from where COMMITTED is not ahead
of it. -/
theorem run_kept {sid : CompilerSessionId} {s : CompilerSession} (he : ∀ e ∈ events,e.inProcess)
    (hs : sys.rt.find sid=some s) : ∃ s',(sys.run events).rt.find sid=some s' ∧ s'.plan=s.plan ∧
      ∀ pid,(s.findPhase pid).any (·.state.past) → (s'.findPhase pid).any (·.state.past) := by
  induction events generalizing sys s with
  | nil => exact ⟨s,hs,rfl,fun _ h => h⟩
  | cons e events ih =>
    have ⟨hfirst,hrest⟩ := List.forall_mem_cons.1 he
    have ⟨t,ht,hk⟩ := (sys.apply_keeps hfirst).sessions sid.value s hs
    have ⟨s',hs',hplan,hpast⟩ := ih hrest ht
    have hbound : t.plan=s.plan := congrArg (·.2.1) hk.binding
    refine ⟨s',hs',hplan.trans hbound,fun pid h => hpast pid ?_⟩
    have ⟨p,hp,hstate⟩ := (Option.any_eq_true _ _).1 h
    obtain ⟨q,hq,hfollows⟩ := hk.after hp
    refine (Option.any_eq_true _ _).2 ⟨q,hq,?_⟩
    exact (sys.phases_follows e hfollows).past hstate

theorem run_take_add (sys : System) (events : List Event) (m n : Nat) :
    sys.run (events.take (m+n))=(sys.run (events.take m)).run ((events.drop m).take n) := by
  rw [List.take_add,run,List.foldl_append]
  rfl

/-- A driver in its `i+1`-st round began it where it had begun `i`. -/
theorem round_before {run : SessionRun} {n : Nat} (hnone : sys.calls[d]?=none)
    (hc : (sys.run (events.take n)).calls[d]?=some (.session run)) (hi : run.iterations=i+1) :
    ∃ m<n,∃ w before,events[m]?=some (.resume d w) ∧
      (sys.run (events.take m)).calls[d]?=some (.session before) ∧ before.pc=.round ∧
      before.iterations=i ∧ before.session=run.session := by
  induction n generalizing run with
  | zero => cases hnone.symm.trans hc
  | succ n ih =>
    have earlier {before : SessionRun}
        (hb : (sys.run (events.take n)).calls[d]?=some (.session before))
        (hn : before.iterations=run.iterations) (hs : before.session=run.session) :
        ∃ m<n+1,∃ w before,events[m]?=some (.resume d w) ∧
          (sys.run (events.take m)).calls[d]?=some (.session before) ∧ before.pc=.round ∧
          before.iterations=i ∧ before.session=run.session := by
      have ⟨m,hm,w,first,he,hf,hpc,hi,hfs⟩ := ih hb (hn.trans hi)
      exact ⟨m,Nat.lt_succ_of_lt hm,w,first,he,hf,hpc,hi,hfs.trans hs⟩
    rw [run_take_succ] at hc
    cases hn : events[n]? with
    | none =>
      rw [hn] at hc
      exact earlier hc rfl rfl
    | some e =>
      rw [hn] at hc
      rcases apply_sessionRun hc with hc | ⟨w,before,_,he,hb,hg⟩ | ⟨_,_,hzero,_⟩
      · exact earlier hc rfl rfl
      · subst he
        cases hg with
        | limited | bounded | waits | returned => exact earlier hb rfl rfl
        | ready hpc | complete hpc =>
          exact ⟨n,Nat.lt_succ_self n,w,before,hn,hb,hpc,Nat.succ.inj hi,rfl⟩
      · rw [hi] at hzero
        cases hzero

/-- Between two rounds of a driver, counted in events. -/
theorem rounds_commit {run run' : SessionRun} {m n : Nat} (h : sys.Regular)
    (he : ∀ e ∈ events,e.regular) (hmn : m<n) (hevent : events[m]?=some (.resume d w))
    (hd : (sys.run (events.take m)).calls[d]?=some (.session run)) (hpc : run.pc=.round)
    (hr : (sys.run (events.take n)).calls[d]?=some (.session run')) (hpc' : run'.pc=.round) :
    ∃ pid,(sys.run (events.take m)).Ahead run.session pid ∧ ∃ k,m<k ∧ k ≤ n ∧
      (sys.run (events.take k)).rt.HasCommitted run.session pid := by
  obtain ⟨j,rfl⟩ : ∃ j,n=m+1+j := ⟨n-(m+1),by omega⟩
  have hnext : sys.run (events.take (m+1))=(sys.run (events.take m)).apply (.resume d w) := by
    rw [run_take_succ,hevent]
  have hrest : ∀ e ∈ (events.drop (m+1)).take j,e.regular :=
    fun e hm => he e (List.mem_of_mem_drop (List.mem_of_mem_take hm))
  rw [run_take_add,hnext] at hr
  have ⟨pid,hahead,k,hk,hcommitted⟩ := round_commits
    (h.run fun e hm => he e (List.mem_of_mem_take hm)) hrest hd hpc hr hpc'
  rw [List.take_take,← hnext,← run_take_add] at hcommitted
  exact ⟨pid,hahead,m+1+min k j,by omega,by omega,hcommitted⟩

theorem past_of_committed {sid : CompilerSessionId} {pid : CompilerPhaseId} {s : CompilerSession}
    {k n : Nat} (he : ∀ e ∈ events,e.inProcess) (hkn : k ≤ n)
    (h : (sys.run (events.take k)).rt.HasCommitted sid pid)
    (hs : (sys.run (events.take n)).rt.find sid=some s) : (s.findPhase pid).any (·.state.past) := by
  obtain ⟨j,rfl⟩ := Nat.exists_eq_add_of_le hkn
  have ⟨p,hp,hstate⟩ := h
  have ⟨s₀,hs₀,hp⟩ := Option.bind_eq_some_iff.1 hp
  have hseg : ∀ e ∈ (events.drop k).take j,e.inProcess := fun e hm =>
    he e (List.mem_of_mem_drop (List.mem_of_mem_take hm))
  have ⟨s',hs',_,hkept⟩ := run_kept hseg hs₀
  rw [← run_take_add,hs] at hs'
  cases hs'
  refine hkept pid ((Option.any_eq_true _ _).2 ⟨p,hp,?_⟩)
  rw [hstate]
  rfl

/-- Each round that is followed by another one adds to the phases COMMITTED is not ahead of. -/
theorem iterations_le {run : SessionRun} {s : CompilerSession} {n : Nat} (h : sys.Regular)
    (he : ∀ e ∈ events,e.regular) (hnone : sys.calls[d]?=none)
    (hc : (sys.run (events.take n)).calls[d]?=some (.session run))
    (hs : (sys.run (events.take n)).rt.find run.session=some s) :
    run.iterations ≤ s.pastPhases+1 ∧ (run.pc=.round → run.iterations ≤ s.pastPhases) := by
  induction n using Nat.strong_induction_on generalizing run s with
  | _ n ih =>
    cases hi : run.iterations with
    | zero => exact ⟨Nat.zero_le _,fun _ => Nat.zero_le _⟩
    | succ i =>
      have ⟨m,hm,w,before,hevent,hb,hpc,hbi,hbs⟩ := round_before hnone hc hi
      have hregular : (sys.run (events.take m)).Regular :=
        h.run fun e hm => he e (List.mem_of_mem_take hm)
      have ⟨s₀,hs₀,_⟩ := (hregular.sound d before hb).ceiling (by rw [hpc]; exact nofun)
        (by rw [hpc]; exact nofun)
      have hle := (ih m hm hb hs₀).2 hpc
      rw [hbi] at hle
      obtain ⟨j,rfl⟩ := Nat.exists_eq_add_of_le (Nat.le_of_lt hm)
      have hseg : ∀ e ∈ (events.drop m).take j,e.inProcess := fun e hm =>
        (he e (List.mem_of_mem_drop (List.mem_of_mem_take hm))).1
      have ⟨s₁,hs₁,hplan,hkept⟩ := run_kept hseg hs₀
      rw [← run_take_add,hbs,hs] at hs₁
      cases hs₁
      have hmono : s₀.pastPhases ≤ s.pastPhases := by
        rw [CompilerSession.pastPhases,CompilerSession.pastPhases,hplan]
        exact List.countP_mono_left fun pid _ => hkept pid
      refine ⟨by omega,fun hround => ?_⟩
      have ⟨pid,⟨s',p,hs',horder,hp,hpast⟩,k,_,hk,hcommitted⟩ :=
        rounds_commit h he hm hevent hb hpc hc hround
      cases hs₀.symm.trans hs'
      rw [hbs] at hcommitted
      have hlt : s₀.pastPhases<s.pastPhases := by
        rw [CompilerSession.pastPhases,CompilerSession.pastPhases,hplan]
        refine countP_lt_of_mem horder hkept
          (past_of_committed (inProcess_of_regular he) hk hcommitted hs) ?_
        rw [hp]
        exact hpast
      omega

/-- A round of `run_session` that is followed by another one has committed a phase that was not
COMMITTED when it began, whoever committed it; so a driver begins at most one round more than its
plan has phases, and none of its rounds meets the progress guard. -/
theorem rounds_bounded {options : RuntimeOptions} {adapters : List Adapter} {file : Bytes}
    {w : World} {events : List Event} (he : ∀ e ∈ events,e.regular) :
    let state (n : Nat) := (boot options adapters file w).run (events.take n)
    (∀ (m n d : Nat) (w' : World) (run run' : SessionRun),m<n →
      events[m]?=some (.resume d w') → (state m).calls[d]?=some (.session run) → run.pc=.round →
      (state n).calls[d]?=some (.session run') → run'.pc=.round →
        ∃ pid p,(state m).rt.phase run.session pid=some p ∧ p.state ≠ .committed ∧
          ∃ k,m<k ∧ k ≤ n ∧ (state k).rt.HasCommitted run.session pid) ∧
    ∀ (n d : Nat) (run : SessionRun),(state n).calls[d]?=some (.session run) →
      (∀ s,(state n).rt.find run.session=some s → run.iterations ≤ s.plan.nodes.length+1) ∧
      (run.pc=.round → ¬run.iterationCeiling<run.iterations+1) := by
  have hregular := boot_regular options adapters file w
  refine ⟨?_,?_⟩
  · intro m n d w' run run' hmn hevent hd hpc hr hpc'
    obtain ⟨pid,⟨s,p,hs,_,hp,hpast⟩,hcommits⟩ := rounds_commit hregular he hmn hevent hd hpc hr hpc'
    refine ⟨pid,p,by rw [Runtime.phase,hs,Option.bind_some,hp],?_,hcommits⟩
    intro hstate
    rw [hstate] at hpast
    cases hpast
  · intro n d run hd
    have hnone : (boot options adapters file w).calls[d]?=none := rfl
    refine ⟨?_,?_⟩
    · intro s hs
      have hle := (iterations_le hregular he hnone hd hs).1
      have hpast := s.pastPhases_le
      omega
    · intro hpc
      have hsound := (hregular.run fun e hm => he e (List.mem_of_mem_take hm)).sound d run hd
      obtain ⟨s,hs,hceiling⟩ := hsound.ceiling (by rw [hpc]; rintro ⟨⟩) (by rw [hpc]; rintro ⟨⟩)
      have hle := (iterations_le hregular he hnone hd hs).2 hpc
      have hpast := s.pastPhases_le
      omega

end System

/-- A driver of the session, about to begin a round. -/
def Call.beginsRound (sid : CompilerSessionId) : Call → Bool
  | .session run => run.session=sid && run.pc=.round
  | _ => false

theorem Call.of_beginsRound {found : Option Call} {sid : CompilerSessionId}
    (h : found.any (Call.beginsRound sid)) :
    ∃ run : SessionRun,found=some (.session run) ∧ run.session=sid ∧ run.pc=.round := by
  have ⟨call,hf,hc⟩ := (Option.any_eq_true _ _).1 h
  cases call with
  | session run =>
    have ⟨hs,hpc⟩ := Bool.and_eq_true_iff.1 hc
    exact ⟨run,hf,of_decide_eq_true hs,of_decide_eq_true hpc⟩
  | _ => cases hc

namespace Sample

/-- A driver from its first locked part to the end of its first round. -/
def driving : List Event :=
  [.call (.discoverToolchain family) world,.call (.createSession request) world,
    .call (.runSession ⟨1⟩) world,.resume 2 world,.resume 2 world,.resume 2 world]++
    List.replicate 9 (.resume 3 world)++[.resume 2 world]

theorem driving_regular : ∀ e ∈ driving,e.regular := by
  intro e he
  rcases List.mem_append.1 he with he | he
  · rcases List.mem_append.1 he with he | he
    · simp only [List.mem_cons,List.not_mem_nil,or_false] at he
      rcases he with rfl | rfl | rfl | rfl | rfl | rfl <;> exact ⟨trivial,trivial⟩
    · rw [(List.mem_replicate.1 he).2]
      exact ⟨trivial,trivial⟩
  · rw [List.mem_singleton.1 he]
    exact ⟨trivial,trivial⟩

end Sample

/-- Its one phase is COMMITTED when its second round begins. -/
theorem System.rounds_bounded_of_driving :
    let state (n : Nat) := (boot Sample.options [Sample.adapter] [] Sample.world).run
      (Sample.driving.take n)
    (state 5).calls[2]?.any (Call.beginsRound ⟨1⟩) ∧ (state 16).calls[2]?.any (Call.beginsRound ⟨1⟩) ∧
      ∃ k pid,5<k ∧ k ≤ 16 ∧ (state k).rt.HasCommitted ⟨1⟩ pid := by
  have hfirst : ((boot Sample.options [Sample.adapter] [] Sample.world).run
      (Sample.driving.take 5)).calls[2]?.any (Call.beginsRound ⟨1⟩) := by decide +kernel
  have hsecond : ((boot Sample.options [Sample.adapter] [] Sample.world).run
      (Sample.driving.take 16)).calls[2]?.any (Call.beginsRound ⟨1⟩) := by decide +kernel
  refine ⟨hfirst,hsecond,?_⟩
  have ⟨run,hd,hs,hpc⟩ := Call.of_beginsRound hfirst
  have ⟨run',hr,_,hpc'⟩ := Call.of_beginsRound hsecond
  have ⟨pid,_,_,_,k,hk,hle,hcommitted⟩ := (rounds_bounded Sample.driving_regular).1 5 16 2
    Sample.world run run' (by decide) rfl hd hpc hr hpc'
  rw [hs] at hcommitted
  exact ⟨k,pid,hk,hle,hcommitted⟩

end CompilerFabric
