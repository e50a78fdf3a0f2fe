import CompilerFabric.Runtime.Counters
import CompilerFabric.Law.Retry

namespace CompilerFabric

open Base Base.Action

/-- Neither generation of the phase goes back. -/
structure PhaseRecord.Forward (p p' : PhaseRecord) : Prop where
  generation : p.generation.value ≤ p'.generation.value
  attemptGeneration : p.attemptGeneration.value ≤ p'.attemptGeneration.value

/-- Neither generation of the session goes back, nor one of any of its phases. -/
structure CompilerSession.Forward (s s' : CompilerSession) : Prop where
  generation : s.generation.value ≤ s'.generation.value
  attemptGeneration : s.attemptGeneration.value ≤ s'.attemptGeneration.value
  phases : ∀ pid p,s.findPhase pid=some p → ∃ p',s'.findPhase pid=some p' ∧ p.Forward p'

def Runtime.Forward (rt t : Runtime) : Prop := ∀ sid s,rt.find sid=some s →
  ∃ s',t.find sid=some s' ∧ s.Forward s'

instance : IsPreorder PhaseRecord PhaseRecord.Forward where
  refl _ := ⟨UInt64.le_refl _,UInt64.le_refl _⟩
  trans _ _ _ h h' := ⟨UInt64.le_trans h.generation h'.generation,
    UInt64.le_trans h.attemptGeneration h'.attemptGeneration⟩

instance : IsPreorder CompilerSession CompilerSession.Forward where
  refl _ := ⟨UInt64.le_refl _,UInt64.le_refl _,fun _ p hp => ⟨p,hp,Std.Refl.refl p⟩⟩
  trans := by
    intro s t u h h'
    refine ⟨UInt64.le_trans h.generation h'.generation,
      UInt64.le_trans h.attemptGeneration h'.attemptGeneration,?_⟩
    intro pid p hp
    have ⟨p',hp',hf⟩ := h.phases pid p hp
    have ⟨p'',hp'',hf'⟩ := h'.phases pid p' hp'
    exact ⟨p'',hp'',IsTrans.trans _ _ _ hf hf'⟩

instance : IsPreorder Runtime Runtime.Forward where
  refl _ _ s hs := ⟨s,hs,Std.Refl.refl s⟩
  trans := by
    intro rt t u h h' sid s hs
    have ⟨s',hs',hf⟩ := h sid s hs
    have ⟨s'',hs'',hf'⟩ := h' sid s' hs'
    exact ⟨s'',hs'',IsTrans.trans _ _ _ hf hf'⟩

namespace PhaseRecord

variable {p : PhaseRecord}

theorem le_nextGeneration (p : PhaseRecord) : p.generation.value ≤ p.nextGeneration.value := by
  unfold nextGeneration
  split
  · exact p.generation.le_next
  · next h =>
    have h0 : p.generation.value=0 := by simpa [Generation.present] using h
    rw [h0]
    exact UInt64.zero_le

theorem le_nextAttemptGeneration (p : PhaseRecord) (isRetry : Bool) :
    p.attemptGeneration.value ≤ (p.nextAttemptGeneration isRetry).value := by
  unfold nextAttemptGeneration
  split
  · split
    · exact p.attemptGeneration.le_next
    · next h =>
      have h0 : p.attemptGeneration.value=0 := by simpa [Generation.present] using h
      rw [h0]
      exact UInt64.zero_le
  · exact UInt64.le_refl _

theorem Stays.forward {p' : PhaseRecord} (h : p.Stays p') : p.Forward p' := by
  have ha : p'.attemptGeneration=p.attemptGeneration := congrArg (·.2.2.1) h.binding
  constructor
  · rw [h.generation]
    exact UInt64.le_refl _
  · rw [ha]
    exact UInt64.le_refl _

end PhaseRecord

namespace System

variable {sys : System} {e : Event}

/-- The event reserves a phase under an attempt generation older than the one of its session. -/
def behind (sys : System) : Event → Bool
  | .resume index w => sys.up && match sys.calls[index]? with
      | some (.phase run) => run.pc=.reserve && w.workspace.toBool &&
          match sys.rt.admission run.session run.phase run.isRetry with
          | .ok (s,p,_) => (p.nextAttemptGeneration run.isRetry).value<s.attemptGeneration.value
          | .error _ => false
      | _ => false
  | _ => false

/-- No generation ever goes back. -/
def NeverBack (sys : System) (events : List Event) : Prop := ∀ n m,n ≤ m →
  Runtime.Forward (sys.run (events.take n)).rt (sys.run (events.take m)).rt

theorem apply_phases_forward (he : e.inProcess) {sid : CompilerSessionId} {s s' : CompilerSession}
    (hs : sys.rt.find sid=some s) (hs' : (sys.apply e).rt.find sid=some s') :
    ∀ pid p,s.findPhase pid=some p → ∃ p',s'.findPhase pid=some p' ∧ p.Forward p' := by
  intro pid p hp
  have hph : sys.rt.phase sid pid=some p := Option.bind_eq_some_iff.2 ⟨s,hs,hp⟩
  have ⟨p',hp',hcase⟩ := apply_record he hph
  have ⟨t,ht,hfound⟩ := Option.bind_eq_some_iff.1 hp'
  rw [hs'] at ht
  cases ht
  refine ⟨p',hfound,?_⟩
  rcases hcase with hst | ⟨w,run,s₀,inputs,r,hres,rfl⟩
  · exact hst.forward
  · have ⟨history,state,hr⟩ := Runtime.reserved_frame r p s₀ inputs run.isRetry w.now
    rw [hr]
    constructor
    · show p.generation.value ≤ r.phaseGeneration.value
      rw [hres.reserves.phaseGeneration]
      exact p.le_nextGeneration
    · show p.attemptGeneration.value ≤ r.attemptGeneration.value
      rw [hres.reserves.attemptGeneration]
      exact p.le_nextAttemptGeneration _

/-- With the phases, the two generations of each session are all there is to show. -/
theorem apply_forward (he : e.inProcess)
    (h : ∀ sid s,sys.rt.find sid=some s → ∃ s',(sys.apply e).rt.find sid=some s' ∧
      s.generation.value ≤ s'.generation.value ∧
      s.attemptGeneration.value ≤ s'.attemptGeneration.value) :
    Runtime.Forward sys.rt (sys.apply e).rt := by
  intro sid s hs
  have ⟨s',hs',hg,ha⟩ := h sid s hs
  exact ⟨s',hs',hg,ha,apply_phases_forward he hs hs'⟩

end System

theorem Runtime.find_modified {rt t : Runtime} {sid who : CompilerSessionId}
    {f : CompilerSession → CompilerSession} (h : t.sessions=rt.sessions.modify who.value f) :
    t.find sid=if who=sid then (rt.find sid).map f else rt.find sid := by
  simp only [Runtime.find,h,Std.ExtTreeMap.getElem?_modify]
  by_cases hi : who=sid
  · subst hi
    simp
  · rw [if_neg hi,if_neg]
    intro hc
    exact hi (StrongId.ext (Std.LawfulEqCmp.eq_of_compare hc))

/-- The first part of `retry_phase` writes nothing, or counts a retry the policy permits. -/
theorem Runtime.beginRetry_spec (sid : CompilerSessionId) (pid : CompilerPhaseId) (rt : Runtime) :
    (∃ e,beginRetry sid pid rt=(.error e,rt)) ∨
    (∃ decision report,beginRetry sid pid rt=(.ok (decision,some report),rt)) ∨
    ∃ s p,rt.find sid=some s ∧ s.findPhase pid=some p ∧ (rt.retryDecision s p).legal ∧
      beginRetry sid pid rt=(.ok (rt.retryDecision s p,none),rt.modifySession sid (·.counted)) := by
  cases hs : rt.find sid with
  | none =>
    refine .inl ⟨.of .notFound "session is not registered",?_⟩
    simp [beginRetry,bind_apply,requireSession,hs]
  | some s =>
    cases hp : s.findPhase pid with
    | none =>
      refine .inl ⟨.of .notFound "phase is not registered",?_⟩
      simp [beginRetry,bind_apply,requireSession,hs,CompilerSession.requirePhase,hp]
    | some p =>
      by_cases hl : (rt.retryDecision s p).legal
      · exact .inr (.inr ⟨s,p,rfl,hp,hl,beginRetry_legal hs hp hl⟩)
      · obtain ⟨report,hb⟩ := beginRetry_refused hs hp hl
        exact .inr (.inl ⟨_,report,hb⟩)

namespace System

variable {sys : System} {e : Event}

theorem start_retry_rt (w : World) (sid : CompilerSessionId) (pid : CompilerPhaseId)
    (rt : Runtime) : ((Command.retryPhase sid pid).start w rt).2=
      (Runtime.beginRetry sid pid rt).2 := by
  simp only [Command.start]
  split
  · next he => rw [he]
  · next he => rw [he]
  · next he => rw [he]

/-- The counting of a retry moves no generation. -/
theorem retry_forward {w : World} {sid : CompilerSessionId} {pid : CompilerPhaseId} (hu : sys.up) :
    Runtime.Forward sys.rt (sys.apply (.call (.retryPhase sid pid) w)).rt := by
  refine apply_forward trivial fun who s hs => ?_
  have hrt : (sys.apply (.call (.retryPhase sid pid) w)).rt=
      (Runtime.beginRetry sid pid (sys.rt.facing w)).2 := by
    rw [← start_retry_rt w]
    simp only [apply,hu,if_true]
  rw [hrt]
  rcases Runtime.beginRetry_spec sid pid (sys.rt.facing w) with ⟨_,h⟩ | ⟨_,_,h⟩ | ⟨_,_,_,_,_,h⟩
  · rw [h]
    exact ⟨s,hs,UInt64.le_refl _,UInt64.le_refl _⟩
  · rw [h]
    exact ⟨s,hs,UInt64.le_refl _,UInt64.le_refl _⟩
  · rw [h]
    have hf : ((sys.rt.facing w).modifySession sid (·.counted)).find who=_ :=
      Runtime.find_modified rfl
    by_cases hw : sid=who
    · rw [if_pos hw] at hf
      refine ⟨s.counted,hf.trans ?_,UInt64.le_refl _,UInt64.le_refl _⟩
      rw [show (sys.rt.facing w).find who=some s from hs]
      rfl
    · rw [if_neg hw] at hf
      exact ⟨s,hf.trans hs,UInt64.le_refl _,UInt64.le_refl _⟩

/-- A reservation that is not refused writes the attempt generation of its phase. -/
theorem reserve_behind {w : World} {run : PhaseRun} (hr : sys.Runs e w run)
    (hpc : run.pc=.reserve) : (sys.behind e=false ∧ (sys.apply e).rt.sessions=sys.rt.sessions) ∨
      ∃ s p inputs r,Runtime.Reserves w run.session run.phase run.isRetry (sys.rt.facing w)
          (sys.apply e).rt s p inputs r ∧
        sys.behind e=decide
          ((p.nextAttemptGeneration run.isRetry).value<s.attemptGeneration.value) := by
  have hrt := hr.reserve hpc
  obtain ⟨hu,index,rfl,hc⟩ := hr
  have hb : sys.behind (.resume index w)=(w.workspace.toBool &&
      match sys.rt.admission run.session run.phase run.isRetry with
      | .ok (s,p,_) => decide
        ((p.nextAttemptGeneration run.isRetry).value<s.attemptGeneration.value)
      | .error _ => false) := by
    simp [behind,hu,hc,hpc]
  have hsame : (sys.rt.facing w).admission run.session run.phase run.isRetry=
      sys.rt.admission run.session run.phase run.isRetry := rfl
  cases hx : Runtime.reserve w run.session run.phase run.isRetry (sys.rt.facing w) with
  | mk result t =>
    rw [hx] at hrt
    rw [hrt,hb]
    rcases Runtime.reserve_spec w _ _ hx with ⟨⟨hs,_⟩,e,_,hn⟩ | ⟨s,p,inputs,r,hres,_⟩
    · refine .inl ⟨?_,hs⟩
      rcases hn with hn | hn
      · rw [← hsame,hn]
        exact Bool.and_false _
      · rw [hn]
        rfl
    · refine .inr ⟨s,p,inputs,r,hres,?_⟩
      rw [← hsame,hres.admitted,hres.workspace]
      rfl

theorem reserves_find {w : World} {run : PhaseRun} {t : Runtime} {s : CompilerSession}
    {p : PhaseRecord} {inputs : List (Ref .intermediate)} {r : Reservation} {sid : CompilerSessionId}
    (h : Runtime.Reserves w run.session run.phase run.isRetry (sys.rt.facing w) t s p inputs r) :
    t.find sid=if run.session=sid then some (s.reserved r inputs run.isRetry w.now)
      else sys.rt.find sid := by
  have hf : t.find sid=_ := Runtime.find_modified h.sessions
  by_cases hs : run.session=sid
  · rw [if_pos hs] at hf ⊢
    rw [hf,← hs,((Runtime.admission_iff _ _).1 h.admitted).session]
    rfl
  · rw [if_neg hs] at hf ⊢
    exact hf

theorem behind_runs (h : sys.behind e=true) : ∃ w run,sys.Runs e w run ∧ run.pc=.reserve := by
  unfold behind at h
  split at h
  · next index w =>
    rw [Bool.and_eq_true] at h
    split at h
    · next run hc =>
      have hpc : run.pc=.reserve := by simpa using (Bool.and_eq_true_iff.1 (Bool.and_eq_true_iff.1 h.2).1).1
      exact ⟨w,run,⟨h.1,index,rfl,hc⟩,hpc⟩
    · cases h.2
  · cases h

theorem apply_forward_iff (he : e.inProcess) :
    Runtime.Forward sys.rt (sys.apply e).rt ↔ sys.behind e=false := by
  constructor
  · intro hf
    cases hb : sys.behind e with
    | false => rfl
    | true =>
      have ⟨w,run,hr,hpc⟩ := behind_runs hb
      rcases reserve_behind hr hpc with ⟨h,_⟩ | ⟨s,p,inputs,r,hres,h⟩
      · rw [h] at hb
        cases hb
      · have ⟨s',hs',h'⟩ := hf run.session s ((Runtime.admission_iff _ _).1 hres.admitted).session
        rw [reserves_find hres,if_pos rfl] at hs'
        cases hs'
        have hle : s.attemptGeneration.value ≤ r.attemptGeneration.value := h'.attemptGeneration
        rw [hres.attemptGeneration] at hle
        rw [hb] at h
        exact absurd (of_decide_eq_true h.symm) (UInt64.not_lt.2 hle)
  · intro hb
    rcases @apply_ticks sys e he with ht | ⟨w,sid,pid,hu,rfl⟩ | ⟨w,run,hr,hpc⟩
    · refine apply_forward he fun sid s hs => ?_
      have ⟨s',hs',h⟩ := ht sid.value s hs
      exact ⟨s',hs',h.generation,h.attemptGeneration ▸ UInt64.le_refl _⟩
    · exact retry_forward hu
    · rcases reserve_behind hr hpc with ⟨_,hs⟩ | ⟨s,p,inputs,r,hres,h⟩
      · refine apply_forward he fun sid s hs' => ?_
        exact ⟨s,(Runtime.find_of_sessions hs sid).trans hs',UInt64.le_refl _,UInt64.le_refl _⟩
      · refine apply_forward he fun sid t ht => ?_
        rw [reserves_find hres]
        by_cases hs : run.session=sid
        · rw [if_pos hs]
          have hfound := ((Runtime.admission_iff _ _).1 hres.admitted).session
          have he : s=t := Option.some.inj (hfound.symm.trans (hs ▸ ht))
          subst he
          refine ⟨_,rfl,s.generation.le_next,?_⟩
          show s.attemptGeneration.value ≤ r.attemptGeneration.value
          rw [h] at hb
          rw [hres.attemptGeneration]
          exact UInt64.not_lt.1 (of_decide_eq_false hb)
        · rw [if_neg hs]
          exact ⟨t,ht,UInt64.le_refl _,UInt64.le_refl _⟩

theorem along_iff {c : System → Event → Bool} {events : List Event} : along c sys events ↔
    ∀ n e,events[n]?=some e → c (sys.run (events.take n)) e := by
  constructor
  · intro h n e he
    exact along_at h he
  · intro h
    induction events generalizing sys with
    | nil => rfl
    | cons e events ih =>
      rw [along,Bool.and_eq_true]
      exact ⟨h 0 e rfl,ih fun n e' he => h (n+1) e' he⟩

/-- In a process no generation goes back exactly when no reservation is taken under an attempt
generation older than the one of its session. -/
theorem neverBack_iff {events : List Event} (hp : ∀ e ∈ events,e.inProcess) :
    sys.NeverBack events ↔ along (fun sys e => !sys.behind e) sys events := by
  have hstep (n : Nat) (e : Event) (he : events[n]?=some e) :
      Runtime.Forward (sys.run (events.take n)).rt (sys.run (events.take (n+1))).rt ↔
        (!(sys.run (events.take n)).behind e) := by
    rw [run_take_succ,he,Bool.not_eq_true']
    exact apply_forward_iff (hp e (List.mem_of_getElem? he))
  rw [along_iff]
  constructor
  · intro h n e he
    exact (hstep n e he).1 (h n (n+1) (Nat.le_succ n))
  · intro h n m hnm
    induction m, hnm using Nat.le_induction with
    | base => exact Std.Refl.refl _
    | succ m _ ih =>
      refine IsTrans.trans _ _ _ ih ?_
      cases he : events[m]? with
      | some e => exact (hstep m e he).2 (h m e he)
      | none =>
        rw [run_take_succ,he]
        exact Std.Refl.refl _

end System

namespace Sample

/-- A session of two phases that feed a link. -/
def twin : System := ready.apply (.call (.createSession request) forked)

/-- The first phase crashes and is retried. -/
def retrying : List Event :=
  .call (.runPhase ⟨1⟩ ⟨1⟩) crashed::List.replicate 5 (.resume 2 crashed)++
    [.call (.retryPhase ⟨1⟩ ⟨1⟩) world,.resume 3 world]

/-- Then the second phase runs for the first time. -/
def overtaken : List Event := retrying++[.call (.runPhase ⟨1⟩ ⟨2⟩) world,.resume 4 world]

theorem retrying_inProcess : ∀ e ∈ retrying,e.inProcess := by
  intro e he
  simp only [retrying,List.cons_append,List.mem_cons,List.mem_append,List.mem_replicate,
    List.not_mem_nil,or_false] at he
  rcases he with rfl | ⟨_,rfl⟩ | rfl | rfl <;> trivial

end Sample

namespace System

theorem neverBack_of_retrying : Sample.twin.NeverBack Sample.retrying :=
  (neverBack_iff Sample.retrying_inProcess).2 (by decide +kernel)

/-- The retry raises the attempt generation of the session, the first run of the other phase sets
it back. -/
theorem not_neverBack_of_overtaken : ¬Sample.twin.NeverBack Sample.overtaken := by
  intro h
  have hg : (((Sample.twin.run (Sample.overtaken.take 8)).rt.find ⟨1⟩).map
        (·.attemptGeneration.value),
      ((Sample.twin.run (Sample.overtaken.take 10)).rt.find ⟨1⟩).map
        (·.attemptGeneration.value))=(some 2,some 1) := by decide +kernel
  have ⟨hbefore,hafter⟩ := Prod.mk.inj hg
  have ⟨s,hs,hbefore⟩ := Option.map_eq_some_iff.1 hbefore
  have ⟨s',hs',hle⟩ := h 8 10 (by decide) ⟨1⟩ s hs
  rw [hs'] at hafter
  have hafter : s'.attemptGeneration.value=1 := Option.some.inj hafter
  have hle := hle.attemptGeneration
  rw [hbefore,hafter] at hle
  exact absurd hle (by decide)

end System

end CompilerFabric
