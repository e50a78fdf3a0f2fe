import CompilerFabric.Runtime.Steps

namespace CompilerFabric

open Base Base.Action

namespace Runtime

/-- A session that a call of `create_session` adds is the record that call builds. -/
theorem createSession_new {w : World} {request : CompileRequest} {rt : Runtime}
    {sid : CompilerSessionId} {session : CompilerSession} (hnew : rt.find sid=none)
    (h : (createSession w request rt).2.find sid=some session) :
    ∃ parts t,sessionParts w request rt=(.ok parts,t) ∧ parts.id=sid ∧
      session=newSession request parts t.epoch w.now ∧
      (createSession w request rt).2.sources=t.sources := by
  have still {α : Type} {x : Op α} (hx : Within Quiet x) {s t : Runtime} {r : Result α}
      (hs : s.find sid=none) (ht : x s=(r,t)) : t.find sid=none := by
    have hi := (hx s).sessions sid.value
    rw [ht] at hi
    rw [Runtime.find] at hs
    rw [hs] at hi
    cases hl : t.sessions[sid.value]? with
    | none => exact hl
    | some s' =>
      rw [hl] at hi
      cases hi
  let built (u : Runtime) : Prop := u.find sid=some session →
    ∃ parts t,sessionParts w request rt=(.ok parts,t) ∧ parts.id=sid ∧
      session=newSession request parts t.epoch w.now ∧ u.sources=t.sources
  suffices hb : built (createSession w request rt).2 from hb h
  have gone {t : Runtime} (ht : t.find sid=none) : built t := by
    intro hs
    rw [ht] at hs
    cases hs
  refine bind_state ?_ ?_
  · intro e t ht
    exact gone (still (sessionParts_within w request) hnew ht)
  intro parts t ht
  have hn := still (sessionParts_within w request) hnew ht
  refine bind_state (Q := built) (by rintro _ _ ⟨⟩) ?_
  rintro _ _ ⟨⟩
  refine bind_state ?_ ?_
  · intro e u hu
    exact gone (still (persist_within w _) hn hu)
  intro _ u hu h
  have hn := still (persist_within w _) hn hu
  obtain ⟨_,_,rfl⟩ := persist_frame w hu
  have hf : (t.sessions.insertIfNew parts.id.value
      (newSession request parts t.epoch w.now))[sid.value]?=some session := h
  rw [Std.ExtTreeMap.getElem?_insertIfNew] at hf
  split at hf
  · next hk =>
    have hk := Std.LawfulEqCmp.eq_of_compare hk.1
    exact ⟨parts,t,ht,StrongId.ext hk,(Option.some.inj hf).symm,rfl⟩
  · rw [Runtime.find] at hn
    rw [hn] at hf
    cases hf

theorem newSession_phase {request : CompileRequest} {parts : SessionParts} {epoch now : UInt64}
    {pid : CompilerPhaseId} {phase : PhaseRecord}
    (h : (newSession request parts epoch now).findPhase pid=some phase) :
    ∃ attempt node,node ∈ parts.plan.nodes ∧ node.id=pid ∧ phase=initialPhase attempt node := by
  rw [CompilerSession.findPhase,newSession,emplacePhases_getElem?] at h
  have hp := List.find?_some h
  obtain ⟨node,hn,he⟩ := List.mem_map.1 (List.mem_of_find?_eq_some h)
  subst he
  refine ⟨_,node,hn,StrongId.ext ?_,rfl⟩
  exact of_decide_eq_true hp

end Runtime

namespace System

theorem phases_follows (sys : System) (e : Event) {p q : PhaseRecord} (h : sys.phases e p q) :
    p.Follows q := by
  have call_follows (call : Call) (h : call.phases p q) : p.Follows q := by
    cases call with
    | phase run =>
      have ⟨_,_,_,_,_,pc⟩ := run
      cases pc with
      | reserve => exact PhaseRecord.Opens.took h
      | commit => exact PhaseRecord.Stays.took h
      | _ => exact PhaseRecord.Stays.took (PhaseRecord.Moves.toStays h)
    | _ => exact PhaseRecord.Stays.took (PhaseRecord.Moves.toStays h)
  cases e with
  | resume index w =>
    simp only [phases] at h
    cases hc : sys.calls[index]? with
    | none =>
      rw [hc] at h
      exact PhaseRecord.Stays.took (PhaseRecord.Moves.toStays h)
    | some call =>
      rw [hc] at h
      exact call_follows call h
  | call => exact PhaseRecord.Stays.took (PhaseRecord.Moves.toStays h)
  | restart => exact PhaseRecord.Stays.took (PhaseRecord.Moves.toStays h)

/-- In one event of a process a phase follows legal transitions. -/
theorem apply_phase (sys : System) {e : Event} (he : e.inProcess) {sid : CompilerSessionId}
    {pid : CompilerPhaseId} {p : PhaseRecord} (h : sys.phase sid pid=some p) :
    ∃ q,(sys.apply e).phase sid pid=some q ∧ p.Follows q := by
  have ⟨q,hq,hk⟩ := (sys.apply_keeps he).phase h
  exact ⟨q,hq,sys.phases_follows e hk⟩

/-- All the transitions of the first `n` events. -/
def taken (steps : Nat → List PhaseTransition) (n : Nat) : List PhaseTransition :=
  (List.range n).flatMap steps

theorem taken_succ (steps : Nat → List PhaseTransition) (n : Nat) :
    taken steps (n+1)=taken steps n++steps n := by
  simp [taken,List.range_succ]

/-- `steps n` are the transitions the phase takes in event `n`: together they lead from PENDING
to where it stands, and its history shows the newest of them. -/
def Chronicle (sys : System) (events : List Event) (sid : CompilerSessionId)
    (pid : CompilerPhaseId) (steps : Nat → List PhaseTransition) : Prop :=
  ∀ n,∃ p,(sys.run (events.take n)).phase sid pid=some p ∧
    PhaseRecord.Path .pending (taken steps n) p.state ∧
    p.history=keepLast kMaxPhaseTransitions (taken steps n)

/-- COMMITTED is entered from COMMIT_READY, and never again after a terminal state. -/
theorem committed_onceOnly : OnceOnly (fun a b => isLegalPhaseTransition a b) .committed
    .commitReady fun s => s ∈ [PhaseState.cancelled,.fenced,.retired] where
  entry := by
    intro a
    cases a <;> decide
  exit := by
    intro b
    cases b <;> decide
  closed := by
    intro a b
    cases a <;> cases b <;> decide
  out := by decide

/-- What a list of transitions says of COMMITTED: entered once, from COMMIT_READY, and not after
the phase was cancelled, fenced or retired. -/
structure CommitsOnce (ts : List PhaseTransition) : Prop where
  once : ts.countP (·.dst = .committed) ≤ 1
  direct : ∀ t ∈ ts,t.dst=.committed → t.src=.commitReady
  never : ∀ before t after,ts=before++t::after → t.dst ∈ [PhaseState.cancelled,.fenced,.retired] →
    ∀ t' ∈ after,t'.dst ≠ .committed

theorem commitsOnce_of_path {ts : List PhaseTransition} {s s' : PhaseState}
    (h : PhaseRecord.Path s ts s') : CommitsOnce ts where
  once := committed_onceOnly.countP_le_one h
  direct := by
    intro t ht hc
    exact committed_onceOnly.entered_from h ht hc
  never := by
    intro before t after he hd
    subst he
    exact committed_onceOnly.not_entered_after h hd

/-- An event that makes a phase COMMITTED found it COMMIT_READY. -/
theorem apply_entered (sys : System) {e : Event} (he : e.inProcess) {sid : CompilerSessionId}
    {pid : CompilerPhaseId} {p q : PhaseRecord} (hp : sys.phase sid pid=some p)
    (hq : (sys.apply e).phase sid pid=some q) (hn : p.state ≠ .committed)
    (hc : q.state=.committed) : p.state=.commitReady := by
  have opens {σ : UInt64 → SessionState → SessionState → Prop}
      (h : Runtime.Keeps σ PhaseRecord.Opens sys.rt (sys.apply e).rt) :
      p.state=.commitReady := by
    have ⟨q',hq',ho⟩ := h.phase hp
    cases hq.symm.trans hq'
    exact absurd (ho.entered hc) hn
  rcases apply_cases he with h | ⟨w,run,h,hpc | ⟨r,report,hpc⟩⟩
  · exact opens (h.mono (fun _ _ _ h => h) fun _ _ h => h.opens)
  · refine opens (σ := fun _ => Eq) ?_
    rw [h.reserve hpc]
    exact Runtime.facing_keeps
      (Runtime.reserve_keeps w run.session run.phase run.isRetry (sys.rt.facing w))
  · rw [phase,h.commit hpc] at hq
    have hp : (sys.rt.facing w).phase sid pid=some p := hp
    exact (Runtime.commitReserved_entered w r hp hq hn hc).1

theorem create_phase {sys : System} {request : CompileRequest} {w : World}
    {sid : CompilerSessionId} {pid : CompilerPhaseId} {p : PhaseRecord}
    (hnew : sys.rt.find sid=none)
    (hp : (sys.apply (.call (.createSession request) w)).phase sid pid=some p) :
    p.state=.pending ∧ p.history=[] := by
  obtain ⟨session,hs,hf⟩ := Option.bind_eq_some_iff.1 hp
  simp only [apply] at hs
  split at hs
  · have hnew : (sys.rt.facing w).find sid=none := hnew
    obtain ⟨parts,_,_,_,he,_⟩ := Runtime.createSession_new hnew hs
    subst he
    obtain ⟨_,_,_,_,he⟩ := Runtime.newSession_phase hf
    subst he
    exact ⟨rfl,rfl⟩
  · rw [hnew] at hs
    cases hs

theorem run_phase {sys : System} {events : List Event} {sid : CompilerSessionId}
    {pid : CompilerPhaseId} {p : PhaseRecord} (hp : sys.phase sid pid=some p)
    (he : ∀ e ∈ events,e.inProcess) (n : Nat) :
    ∃ q,(sys.run (events.take n)).phase sid pid=some q := by
  induction n with
  | zero => exact ⟨p,hp⟩
  | succ n ih =>
    have ⟨q,hq⟩ := ih
    rw [run_take_succ]
    cases hn : events[n]? with
    | none => exact ⟨q,hq⟩
    | some e =>
      have ⟨q',hq',_⟩ := (sys.run (events.take n)).apply_phase (he e (List.mem_of_getElem? hn)) hq
      exact ⟨q',hq'⟩

/-- What one event of a run does to a phase. -/
theorem run_took {sys : System} {events : List Event} {sid : CompilerSessionId}
    {pid : CompilerPhaseId} (he : ∀ e ∈ events,e.inProcess) (n : Nat) :
    ∃ ts : List PhaseTransition,∀ p q : PhaseRecord,
      (sys.run (events.take n)).phase sid pid=some p →
      (sys.run (events.take (n+1))).phase sid pid=some q → p.Took ts q := by
  cases hp : (sys.run (events.take n)).phase sid pid with
  | none => exact ⟨[],fun _ _ h => nomatch h⟩
  | some p =>
    have same (ts : List PhaseTransition) {q : PhaseRecord} (h : p.Took ts q) :
        ∀ p' q',some p=some p' → some q=some q' → p'.Took ts q' := by
      rintro _ _ ⟨⟩ ⟨⟩
      exact h
    rw [run_take_succ]
    cases hn : events[n]? with
    | none =>
      dsimp only
      rw [hp]
      exact ⟨[],same [] (.of_same rfl rfl)⟩
    | some e =>
      have ⟨q,hq,_,ts,ht⟩ :=
        (sys.run (events.take n)).apply_phase (he e (List.mem_of_getElem? hn)) hp
      dsimp only
      rw [hq]
      exact ⟨ts,same ts ht⟩

/-- The transitions event by event, from a phase that has taken none. -/
theorem exists_chronicle {sys : System} {events : List Event} {sid : CompilerSessionId}
    {pid : CompilerPhaseId} {p : PhaseRecord} (hp : sys.phase sid pid=some p)
    (hs : p.state=.pending) (hh : p.history=[]) (he : ∀ e ∈ events,e.inProcess) :
    ∃ steps,Chronicle sys events sid pid steps := by
  choose steps hsteps using fun n => @run_took sys events sid pid he n
  refine ⟨steps,?_⟩
  intro n
  induction n with
  | zero =>
    refine ⟨p,hp,?_,?_⟩
    · rw [hs]
      exact .nil _
    · rw [hh]
      exact (keepLast_of_length_le (Nat.zero_le _)).symm
  | succ n ih =>
    have ⟨q,hq,hpath,hhist⟩ := ih
    have ⟨q',hq'⟩ := run_phase hp he (n+1)
    have ht := hsteps n q q' hq hq'
    refine ⟨q',hq',?_,?_⟩
    · rw [taken_succ]
      exact hpath.append ht.path
    · rw [taken_succ,ht.history (hhist ▸ length_keepLast_le),hhist,keepLast_append_of_keepLast]

/-- Whatever its callers interleave, a process commits a phase at most once: the transitions the
phase takes in the events enter COMMITTED once, from COMMIT_READY, and not after CANCELLED,
FENCED or RETIRED; the one event that makes it COMMITTED found it COMMIT_READY. -/
theorem commits_at_most_once {sys : System} {request : CompileRequest} {w : World}
    {events : List Event} {sid : CompilerSessionId} {pid : CompilerPhaseId} {p : PhaseRecord}
    (hnew : sys.rt.find sid=none)
    (hp : (sys.apply (.call (.createSession request) w)).phase sid pid=some p)
    (he : ∀ e ∈ events,e.inProcess) :
    (∃ steps,Chronicle (sys.apply (.call (.createSession request) w)) events sid pid steps ∧
      ∀ n,CommitsOnce (taken steps n)) ∧
    ∀ n q q',
      ((sys.apply (.call (.createSession request) w)).run (events.take n)).phase sid pid=some q →
      ((sys.apply (.call (.createSession request) w)).run (events.take (n+1))).phase sid pid=
        some q' → q.state ≠ .committed → q'.state=.committed → q.state=.commitReady := by
  have ⟨hs,hh⟩ := create_phase hnew hp
  refine ⟨?_,?_⟩
  · have ⟨steps,hc⟩ := exists_chronicle hp hs hh he
    refine ⟨steps,hc,?_⟩
    intro n
    have ⟨q,_,hpath,_⟩ := hc n
    exact commitsOnce_of_path hpath
  · intro n q q' hq hq' hn hc
    rw [run_take_succ] at hq'
    cases hev : events[n]? with
    | none =>
      rw [hev] at hq'
      cases hq.symm.trans hq'
      exact absurd hc hn
    | some e =>
      rw [hev] at hq'
      exact apply_entered _ (he e (List.mem_of_getElem? hev)) hq hq' hn hc

/-- A phase that runs to its commit. -/
theorem commits_at_most_once_of_sample :
    ((Sample.created.run Sample.phaseRun).phase ⟨1⟩ ⟨1⟩).map (·.state)=some .committed ∧
      ∃ steps,Chronicle Sample.created Sample.phaseRun ⟨1⟩ ⟨1⟩ steps ∧
        ∀ n,CommitsOnce (taken steps n) := by
  refine ⟨by decide +kernel,?_⟩
  have hnew : Sample.ready.rt.find ⟨1⟩=none := Option.isNone_iff_eq_none.1 (by decide +kernel)
  have ⟨p,hp⟩ := Option.isSome_iff_exists.1
    (by decide +kernel : (Sample.created.phase ⟨1⟩ ⟨1⟩).isSome)
  have he : ∀ e ∈ Sample.phaseRun,e.inProcess := by
    intro e he
    rcases List.mem_cons.1 he with rfl | he
    · trivial
    · rw [(List.mem_replicate.1 he).2]
      trivial
  exact (commits_at_most_once hnew hp he).1

end System

end CompilerFabric
