import CompilerFabric.Base.Triple
import CompilerFabric.Law.Authority
import CompilerFabric.Law.Monotone
import CompilerFabric.Law.Plan

namespace CompilerFabric

open Base Base.Action

/-- The event is not the adoption of a session from elsewhere. -/
def Event.unadopted : Event → Prop
  | .call (.adoptSession _) _ => False
  | _ => True

theorem IdAllocator.next_present {tag : IdTag} (a : IdAllocator tag) : a.next.1.present := by
  unfold next
  by_cases h : a.counter=0 <;> simp [h,StrongId.present]

theorem Estate.Moves.known {who : CompilerSessionId} {e e' : Estate} (h : Moves who e e') {i : UInt64}
    (hi : (e'.sessions i).isSome) : (e.sessions i).isSome := by
  induction h with
  | refl => exact hi
  | reserve hs | register hs =>
    simp only [reserved,registered,Function.update_apply] at hi
    split at hi
    · next he => rw [he,hs]; rfl
    · exact hi
  | trans _ _ ih ih' => exact ih (ih' hi)

namespace Runtime

variable {w : World} {rt t : Runtime} {sid : CompilerSessionId} {pid : CompilerPhaseId}

theorem known_iff : (rt.estate.sessions sid.value).isSome ↔ (rt.find sid).isSome := by
  rw [estate,find,Option.isSome_map]

/-- What one session does brings no other. -/
theorem Acts.known {who : CompilerSessionId} (h : Acts who rt t) (hf : (t.find sid).isSome) :
    (rt.find sid).isSome := known_iff.1 (h.estate.known (known_iff.2 hf))

theorem Idles.known (h : rt.Idles t) (hf : (t.find sid).isSome) : (rt.find sid).isSome := by
  have hi := h.sessions sid.value
  have hf : (t.sessions[sid.value]?).isSome := hf
  show (rt.sessions[sid.value]?).isSome
  generalize rt.sessions[sid.value]?=before at hi ⊢
  generalize t.sessions[sid.value]?=after at hi hf
  cases hi with
  | none => exact hf
  | some => rfl

theorem initial_ne_zero : (Generation.initial : Generation .session).value ≠ 0 := by decide

theorem Reserves.lease_present {isRetry : Bool} {s : CompilerSession} {p : PhaseRecord}
    {inputs : List (Ref .intermediate)} {r : Reservation}
    (h : Reserves w sid pid isRetry rt t s p inputs r) : r.lease.present := by
  obtain ⟨reason,hg⟩ := h.granted
  have hl : r.lease=⟨rt.leases.allocator.next.1,.initial⟩ := congrArg Prod.fst hg
  rw [hl,Ref.present,rt.leases.allocator.next_present]

theorem sessionParts_planned {request : CompileRequest} {parts : SessionParts}
    (h : sessionParts w request rt=(.ok parts,t)) : parts.id.present ∧ parts.plan.nodes ≠ [] := by
  have hid : parts.id.present := by
    rw [(sessionParts_ok w h).1]
    exact rt.sessionIds.next_present
  obtain ⟨_,_,_,h⟩ := seq_eq_ok.1 h
  obtain ⟨_,_,_,h⟩ := seq_eq_ok.1 h
  obtain ⟨_,_,_,h⟩ := seq_eq_ok.1 h
  obtain ⟨_,_,_,h⟩ := seq_eq_ok.1 h
  obtain ⟨_,_,_,h⟩ := seq_eq_ok.1 h
  obtain ⟨_,_,_,h⟩ := seq_eq_ok.1 h
  obtain ⟨_,_,_,h⟩ := seq_eq_ok.1 h
  obtain ⟨_,_,_,h⟩ := seq_eq_ok.1 h
  obtain ⟨_,_,_,h⟩ := seq_eq_ok.1 h
  obtain ⟨_,_,_,h⟩ := seq_eq_ok.1 h
  obtain ⟨_,_,_,h⟩ := seq_eq_ok.1 h
  obtain ⟨_,_,_,h⟩ := seq_eq_ok.1 h
  obtain ⟨_,_,_,h⟩ := seq_eq_ok.1 h
  obtain ⟨_,_,_,h⟩ := seq_eq_ok.1 h
  obtain ⟨_,_,_,h⟩ := seq_eq_ok.1 h
  obtain ⟨_,_,_,h⟩ := seq_eq_ok.1 h
  obtain ⟨plan,_,hplan,h⟩ := seq_eq_ok.1 h
  obtain ⟨_,_,_,h⟩ := seq_eq_ok.1 h
  obtain ⟨_,_,_,h⟩ := seq_eq_ok.1 h
  obtain ⟨_,_,_,h⟩ := seq_eq_ok.1 h
  have hp : plan=parts.plan := congrArg SessionParts.plan (Except.ok.inj (congrArg Prod.fst h))
  have hb := PhasePlan.build_ok.1 (ofExcept_eq_ok.1 hplan).1
  rw [← hp,PlanData.build_nodes hb]
  exact ⟨hid,(PlanData.build_ok_iff.1 hb).1⟩

end Runtime

namespace PhaseRecord

variable {plan : PhasePlan} {p q : PhaseRecord}

/-- What is recorded of a phase agrees: its transitions lead to its state, a commit it carries is
the one it was COMMITTED with, and it did not get there without an attempt. -/
structure Lawful (plan : PhasePlan) (p : PhaseRecord) : Prop where
  history : ∃ ts,Path .pending ts p.state ∧ p.history=keepLast kMaxPhaseTransitions ts
  attempts : p.attempts.length ≤ kMaxPhaseAttempts
  begun : p.state.inFlight ∨ p.commit.present → p.attempts ≠ []
  fanIn : p.attempts ≠ [] → ∀ node,plan.find p.id=some node → node.fanIn →
    node.requiredInputs.toNat ≤ p.inputs.length
  lease : p.attempts ≠ [] → p.lease.present
  committed : p.state=.committed → p.commit.present
  commit : p.commit.present → p.state ∈ [PhaseState.committed,.fenced,.retired]

theorem ended_closed : ∀ a b,isLegalPhaseTransition a b →
    a ∈ [PhaseState.committed,.fenced,.retired] → b ∈ [PhaseState.committed,.fenced,.retired] := by
  intro a b
  cases a <;> cases b <;> decide

theorem startable_not_ended {isRetry : Bool} {s : PhaseState} (h : Runtime.startable isRetry s) :
    s ∉ [PhaseState.committed,.fenced,.retired] := by
  unfold Runtime.startable at h
  revert h
  cases s <;> cases isRetry <;> decide

theorem Follows.history (h : p.Follows q)
    (hp : ∃ ts,Path .pending ts p.state ∧ p.history=keepLast kMaxPhaseTransitions ts) :
    ∃ ts,Path .pending ts q.state ∧ q.history=keepLast kMaxPhaseTransitions ts := by
  obtain ⟨_,us,ht⟩ := h
  obtain ⟨ts,hpath,hh⟩ := hp
  refine ⟨ts++us,hpath.append ht.path,?_⟩
  rw [ht.history (hh ▸ length_keepLast_le),hh,keepLast_append_of_keepLast]

/-- What `Stays` asks for is all a phase needs beside its commit. -/
theorem Lawful.stays (hp : p.Lawful plan) (h : p.Stays q) (hb : q.commit.present → q.attempts ≠ [])
    (hc : q.state=.committed → q.commit.present)
    (hs : q.commit.present → q.state ∈ [PhaseState.committed,.fenced,.retired]) :
    q.Lawful plan := by
  have hlength : q.attempts.length=p.attempts.length := by
    simpa using congrArg List.length h.attempts
  have hnil : q.attempts=[] ↔ p.attempts=[] := by
    rw [← List.length_eq_zero_iff,hlength,List.length_eq_zero_iff]
  have hid : q.id=p.id := congrArg (·.1) h.binding
  have hinputs : q.inputs=p.inputs := congrArg (·.2.2.2.2.2.2.2.2.2.2.1) h.binding
  have hlease : q.lease=p.lease := congrArg (·.2.2.2.1) h.binding
  refine ⟨h.took.history hp.history,hlength ▸ hp.attempts,?_,?_,?_,hc,hs⟩
  · rintro (hf | hq)
    · rw [Ne,hnil]
      exact hp.begun (.inl (h.flight hf))
    · exact hb hq
  · rw [hid,hinputs,Ne,hnil]
    exact hp.fanIn
  · rw [hlease,Ne,hnil]
    exact hp.lease

theorem Lawful.moves (hp : p.Lawful plan) (h : p.Moves q) : q.Lawful plan := by
  refine hp.stays h.toStays ?_ ?_ ?_
  · rw [h.commit]
    intro hc hq
    have hlength := congrArg List.length h.attempts
    rw [hq] at hlength
    exact hp.begun (.inr hc) (List.length_eq_zero_iff.1 (by simpa using hlength.symm))
  · rw [h.commit]
    exact fun hs => hp.committed (h.entered hs)
  · rw [h.commit]
    intro hc
    obtain ⟨_,_,ht⟩ := h.took
    exact ht.path.ends ended_closed (hp.commit hc)

theorem Lawful.reserved {s : CompilerSession} {r : Reservation} {inputs : List (Ref .intermediate)}
    {isRetry : Bool} {now : UInt64} (hp : p.Lawful plan) (hs : Runtime.startable isRetry p.state)
    (hroom : p.attempts.length<kMaxPhaseAttempts) (hin : ∀ node,plan.find p.id=some node →
      node.fanIn → node.requiredInputs.toNat ≤ inputs.length) (hl : r.lease.present) :
    (p.reserved s r inputs isRetry now).Lawful plan := by
  have hstate := Runtime.reserved_preparing r hs s inputs now
  have htook := (Runtime.reserved_opens r p s inputs isRetry now).took.history hp.history
  obtain ⟨history,state,he⟩ := Runtime.reserved_frame r p s inputs isRetry now
  rw [he] at hstate htook ⊢
  have hstate : state=.preparing := hstate
  subst hstate
  refine ⟨htook,?_,?_,fun _ => hin,fun _ => hl,?_,?_⟩
  · show (p.attempts++[_]).length ≤ kMaxPhaseAttempts
    rw [List.length_append,List.length_singleton]
    omega
  · intro _
    exact List.append_ne_nil_of_right_ne_nil _ (List.cons_ne_nil _ _)
  · rintro ⟨⟩
  · rintro ⟨⟩

theorem Lawful.commits {commit : CommitId} {now : UInt64} (hp : p.Lawful plan)
    (hs : p.state=.commitReady) (hc : commit.present) : (p.committed commit now).Lawful plan := by
  have hstate : (p.committed commit now).state=.committed := by
    rw [PhaseRecord.committed,recordTransition_state]
    show reach p.state .committed=.committed
    rw [hs]
    rfl
  have hstays := Runtime.committed_stays p commit now
  have hcommit : (p.committed commit now).commit=commit := by
    rw [PhaseRecord.committed]
    obtain ⟨_,_,he,_⟩ := recordTransition_frame ({ p with commit,committedAtNanos := now
      }.modifyLastAttempt fun a => { a with terminalState := .committed }) .committed
      (ascii "authority revalidated and outputs committed") now
    rw [he]
    rfl
  refine hp.stays hstays ?_ (fun _ => by rwa [hcommit]) (fun _ => by simp [hstate])
  intro _ hq
  have hlength := congrArg List.length hstays.attempts
  rw [hq] at hlength
  refine hp.begun (.inl ?_) (List.length_eq_zero_iff.1 (by simpa using hlength.symm))
  rw [hs]
  rfl

end PhaseRecord

namespace CompilerSession

variable {s s' : CompilerSession} {k : UInt64} {pid : CompilerPhaseId}

/-- The phase has been committed. -/
def Done (s : CompilerSession) (pid : CompilerPhaseId) : Prop :=
  ∃ p,s.findPhase pid=some p ∧ p.commit.present

/-- The phase is bound to what its session is bound to. -/
def Binds (s : CompilerSession) (p : PhaseRecord) : Prop :=
  (p.toolchain,p.target,p.environment,p.policy,p.source,p.irGeneration)=
    (s.toolchain,s.target,s.environment,s.policy,s.source,s.irGeneration)

/-- A session as it comes about under `k`: what was begun is bound to what the session is bound to,
and was not begun before what it depends on was committed. -/
structure Lawful (k : UInt64) (s : CompilerSession) : Prop where
  id : s.id.value=k
  present : s.id.present
  generation : s.generation.value ≠ 0
  planned : s.plan.nodes ≠ []
  recorded : ∀ pid ∈ s.plan.order,∃ p,s.findPhase pid=some p
  keyed : ∀ pid p,s.findPhase pid=some p → p.id=pid
  phases : ∀ pid p,s.findPhase pid=some p → p.Lawful s.plan
  bound : ∀ pid p,s.findPhase pid=some p → p.attempts ≠ [] → s.Binds p
  after : ∀ pid p,s.findPhase pid=some p → p.attempts ≠ [] → ∀ node,s.plan.find pid=some node →
    ∀ dependency ∈ node.dependsOn,s.Done dependency

theorem newSession_lawful {request : CompileRequest} {parts : Runtime.SessionParts}
    {epoch now : UInt64} (hid : parts.id.present) (hn : parts.plan.nodes ≠ []) :
    (Runtime.newSession request parts epoch now).Lawful parts.id.value := by
  have hphase {pid : CompilerPhaseId} {p : PhaseRecord}
      (h : (Runtime.newSession request parts epoch now).findPhase pid=some p) :
      p.id=pid ∧ p.state=.pending ∧ p.history=[] ∧ p.attempts=[] ∧ p.commit.present=false := by
    obtain ⟨_,_,_,hi,rfl⟩ := Runtime.newSession_phase h
    exact ⟨hi,rfl,rfl,rfl,rfl⟩
  refine ⟨rfl,hid,Runtime.initial_ne_zero,hn,fun pid hpid => ?_,fun pid p h => (hphase h).1,fun pid p h => ?_,
    fun pid p h ha => absurd (hphase h).2.2.2.1 ha,fun pid p h ha => absurd (hphase h).2.2.2.1 ha⟩
  · have hperm : pid ∈ parts.plan.nodes.map (·.id) := by
      rcases parts.plan.built with he | hb
      · rw [show parts.plan.nodes=[] from congrArg PlanData.nodes he] at hn
        exact absurd rfl hn
      · exact (PlanData.sound_of_build hb).2.order.mem_iff.1 hpid
    obtain ⟨node,hnode,rfl⟩ := List.mem_map.1 hperm
    rw [← Option.isSome_iff_exists,findPhase,Runtime.newSession,
      emplacePhases_getElem?,List.find?_isSome]
    exact ⟨_,List.mem_map_of_mem hnode,by simp [initialPhase]⟩
  · obtain ⟨_,hs,hh,ha,hc⟩ := hphase h
    refine ⟨⟨[],hs ▸ .nil _,hh⟩,by simp [ha],?_,fun hne => absurd ha hne,fun hne => absurd ha hne,
      ?_,?_⟩
    · rintro (hf | hcommit)
      · rw [hs] at hf
        cases hf
      · rw [hc] at hcommit
        cases hcommit
    · intro hs'
      rw [hs] at hs'
      cases hs'
    · intro hcommit
      rw [hc] at hcommit
      cases hcommit

end CompilerSession

namespace System

variable {sys : System} {e : Event} {sid : CompilerSessionId} {pid : CompilerPhaseId}

/-- What an event does to a phase. -/
inductive Writes (sys : System) (e : Event) (sid : CompilerSessionId) (pid : CompilerPhaseId)
    (p : PhaseRecord) : PhaseRecord → Prop
  | moves {q : PhaseRecord} (h : p.Moves q) : Writes sys e sid pid p q
  | reserves {s : CompilerSession} {inputs : List (Ref .intermediate)} (r : Reservation)
      (isRetry : Bool) (now : UInt64) (h : Runtime.Admits sid pid isRetry sys.rt s p inputs)
      (hl : r.lease.present) :
      Writes sys e sid pid p (p.reserved s r inputs isRetry now)
  | commits {commit : CommitId} (now : UInt64) (hs : p.state=.commitReady) (hc : commit.present) :
      Writes sys e sid pid p (p.committed commit now)

theorem Writes.refl (p : PhaseRecord) : sys.Writes e sid pid p p := .moves (Std.Refl.refl p)

theorem reserved_writes {w : World} {run : PhaseRun} {s : CompilerSession} {p q : PhaseRecord}
    {inputs : List (Ref .intermediate)} {r : Reservation}
    (h : Runtime.Reserves w run.session run.phase run.isRetry (sys.rt.facing w) (sys.apply e).rt s q
      inputs r) (hf : sys.rt.phase sid pid=some p) :
    ∃ p',(sys.apply e).rt.phase sid pid=some p' ∧ sys.Writes e sid pid p p' := by
  obtain ⟨s₀,hs₀,hp⟩ := Option.bind_eq_some_iff.1 hf
  have ha := (Runtime.admission_iff _ _).1 h.admitted
  have hfind := @reserves_find sys w run _ s q inputs r sid h
  by_cases hsid : run.session=sid
  · rw [if_pos hsid] at hfind
    have hs : sys.rt.find run.session=some s := ha.session
    rw [hsid,hs₀] at hs
    cases hs
    have hmod := s.findPhase_modifyPhase r.phase pid
      fun p => p.reserved s r inputs run.isRetry w.now
    have hmod : (s.reserved r inputs run.isRetry w.now).findPhase pid=_ := hmod
    rw [h.phase,hp] at hmod
    by_cases hpid : run.phase=pid
    · rw [if_pos hpid,Option.map_some] at hmod
      subst hsid hpid
      have hq := ha.phase
      rw [hp] at hq
      cases hq
      refine ⟨_,Option.bind_eq_some_iff.2 ⟨_,hfind,hmod⟩,.reserves r run.isRetry w.now ?_ ?_⟩
      · exact ⟨ha.up,ha.session,ha.admits,ha.phase,ha.startable,ha.ready,ha.current,ha.inputs,
          ha.room⟩
      · exact h.lease_present
    · rw [if_neg hpid] at hmod
      exact ⟨p,Option.bind_eq_some_iff.2 ⟨_,hfind,hmod⟩,.refl p⟩
  · rw [if_neg hsid] at hfind
    exact ⟨p,Option.bind_eq_some_iff.2 ⟨s₀,hfind.trans hs₀,hp⟩,.refl p⟩

theorem published_writes {w : World} {r : Reservation} {session : CompilerSession}
    {p phase : PhaseRecord} {t : Runtime} (h : Runtime.Published w r session phase sys.rt t)
    (hc : sys.rt.committable r=.ok (session,phase)) (hid : phase.id=r.phase)
    (hp : sys.rt.phase sid pid=some p) :
    ∃ p',t.phase sid pid=some p' ∧ sys.Writes e sid pid p p' := by
  rcases h with h | ⟨commit,candidate,hcommit,h⟩
  · refine ⟨p,?_,.refl p⟩
    rwa [Runtime.phase,Runtime.find_of_sessions h]
  obtain ⟨hs,hphase,_,_,hready⟩ := Runtime.committable_ok r hc
  rw [Runtime.phase_modifySession h]
  split
  · next hsid =>
    subst hsid
    rw [hs,Option.map_some,Option.bind_some,CompilerSession.findPhase,Runtime.projected_phases]
    have hf := session.findPhase_modifyPhase phase.id pid (·.committed commit w.now)
    rw [CompilerSession.findPhase] at hf
    rw [hf,hid]
    rw [Runtime.phase,hs,Option.bind_some] at hp
    split
    · next hpid =>
      subst hpid
      rw [hp] at hphase
      cases hphase
      rw [hp]
      exact ⟨_,rfl,.commits w.now hready hcommit⟩
    · exact ⟨p,hp,.refl p⟩
  · exact ⟨p,hp,.refl p⟩

theorem apply_writes (he : e.inProcess) (hk : ∀ sid s,sys.rt.find sid=some s →
      ∀ pid p,s.findPhase pid=some p → p.id=pid) {p : PhaseRecord} (hp : sys.rt.phase sid pid=some p) :
    ∃ p',(sys.apply e).rt.phase sid pid=some p' ∧ sys.Writes e sid pid p p' := by
  rcases @apply_cases sys _ he with h | ⟨w,run,hr,hpc | ⟨r,report,hpc⟩⟩
  · obtain ⟨p',hp',hm⟩ := h.phase hp
    exact ⟨p',hp',.moves hm⟩
  · have ht := hr.reserve hpc
    cases hx : Runtime.reserve w run.session run.phase run.isRetry (sys.rt.facing w) with
    | mk result t =>
      rw [hx] at ht
      have ht : (sys.apply e).rt=t := ht
      subst ht
      rcases Runtime.reserve_spec w _ _ hx with ⟨⟨hs,_⟩,_⟩ | ⟨s,q,inputs,r,hres,_⟩
      · refine ⟨p,?_,.refl p⟩
        rw [Runtime.phase,Runtime.find_of_sessions hs]
        exact hp
      · exact reserved_writes hres hp
  · rw [hr.commit hpc]
    rcases @Runtime.commitReserved_spec w (sys.rt.facing w) r report with h | ⟨session,phase,h⟩
    · obtain ⟨p',hp',hq⟩ := (Runtime.facing_idles h).keeps.phase hp
      exact ⟨p',hp',.moves hq.toMoves⟩
    · obtain ⟨hs,hphase,_⟩ := Runtime.committable_ok r h.committable
      exact published_writes h.published h.committable (hk r.session session hs r.phase phase hphase) hp

/-- A session that an event of the process brings is created or adopted by it. -/
theorem apply_brings (he : e.inProcess) (hf : ((sys.apply e).rt.find sid).isSome) :
    (sys.rt.find sid).isSome ∨
      (∃ request w,e=.call (.createSession request) w ∧
        (sys.apply e).rt=(Runtime.createSession w request (sys.rt.facing w)).2) ∨
      ∃ session w,e=.call (.adoptSession session) w ∧
        (sys.apply e).rt=(Runtime.adoptSession w session (sys.rt.facing w)).2 := by
  have hturn := @apply_turn sys e he
  generalize ht : (sys.apply e).rt=t at hturn hf
  cases hturn with
  | idle h => exact .inl (Runtime.Idles.known h hf)
  | @reserve w run h hpc =>
    exact .inl ((Runtime.reserve_acts w run.session run.phase run.isRetry (sys.rt.facing w)).known hf)
  | @record w r report h =>
    exact .inl ((Runtime.recordExecution_acts w r report (sys.rt.facing w)).known hf)
  | @commit w run r report h hpc =>
    exact .inl ((Runtime.commitReserved_tends w r report (sys.rt.facing w)).acts.known hf)
  | @create w request hup he => exact .inr (.inl ⟨request,w,he,rfl⟩)
  | @adopt w session hup he => exact .inr (.inr ⟨session,w,he,rfl⟩)

theorem apply_known (he : e.inProcess) (hu : e.unadopted) (hf : ((sys.apply e).rt.find sid).isSome) :
    (sys.rt.find sid).isSome ∨ ∃ request w,e=.call (.createSession request) w ∧
      (sys.apply e).rt=(Runtime.createSession w request (sys.rt.facing w)).2 := by
  rcases apply_brings he hf with h | h | ⟨session,w,rfl,_⟩
  · exact .inl h
  · exact .inr h
  · exact hu.elim

theorem apply_generation (he : e.inProcess) {s s' : CompilerSession} (hs : sys.rt.find sid=some s)
    (hs' : (sys.apply e).rt.find sid=some s') : s.generation.value ≤ s'.generation.value := by
  rcases @apply_ticks sys e he with ht | ⟨w,who,pid,hu,rfl⟩ | ⟨w,run,hr,hpc⟩
  · obtain ⟨t,ht,h⟩ := ht sid.value s hs
    cases hs'.symm.trans ht
    exact h.generation
  · obtain ⟨t,ht,h⟩ := retry_forward hu sid s hs
    cases hs'.symm.trans ht
    exact h.generation
  · rcases reserve_behind hr hpc with ⟨_,h⟩ | ⟨q,_,_,_,h,_⟩
    · rw [Runtime.find_of_sessions h,hs] at hs'
      cases hs'
      exact UInt64.le_refl _
    · rw [reserves_find h] at hs'
      split at hs'
      · next hw =>
        have hq := ((Runtime.admission_iff _ _).1 h.admitted).session
        rw [hw] at hq
        cases hs.symm.trans hq
        cases hs'
        exact s.generation.le_next
      · cases hs.symm.trans hs'
        exact UInt64.le_refl _

variable {plan : PhasePlan} {p q : PhaseRecord}

theorem Writes.id (h : sys.Writes e sid pid p q) : q.id=p.id := by
  cases h with
  | moves h => exact congrArg (·.1) h.binding
  | reserves r isRetry now =>
    obtain ⟨_,_,h⟩ := Runtime.reserved_frame r p _ _ isRetry now
    rw [h]
    rfl
  | commits now => exact congrArg (·.1) (Runtime.committed_stays p _ now).binding

/-- A commit is not taken back. -/
theorem Writes.done (h : sys.Writes e sid pid p q) (hp : p.Lawful plan) (hc : p.commit.present) :
    q.commit.present := by
  cases h with
  | moves h => rwa [h.commit]
  | reserves r isRetry now h =>
    exact absurd (hp.commit hc) (PhaseRecord.startable_not_ended h.startable)
  | commits now hs =>
    have hended := hp.commit hc
    rw [hs] at hended
    exact absurd hended (by decide)

theorem resolveInputs_enough {rt : Runtime} {s : CompilerSession} {inputs : List (Ref .intermediate)}
    (h : rt.resolveInputs s p=.ok inputs) {node : PhaseNode} (hn : s.plan.find p.id=some node)
    (hf : node.fanIn) : node.requiredInputs.toNat ≤ inputs.length := by
  simp only [Runtime.resolveInputs,hn,Option.elim_some,do_eq_ok,ensure_ok] at h
  obtain ⟨_,hnode,_,_,_,hle,he⟩ := h
  cases hnode
  cases he
  exact Nat.not_lt.1 fun hlt => hle ⟨hf,hlt⟩

theorem Writes.lawful {s : CompilerSession} (h : sys.Writes e sid pid p q)
    (hs : sys.rt.find sid=some s) (hp : p.Lawful s.plan) : q.Lawful s.plan := by
  cases h with
  | moves h => exact hp.moves h
  | reserves r isRetry now h hl =>
    refine hp.reserved h.startable h.room (fun node hn hf => ?_) hl
    cases hs.symm.trans h.session
    exact resolveInputs_enough h.inputs hn hf
  | commits now hready hc => exact hp.commits hready hc

theorem Writes.binds {s : CompilerSession} (h : sys.Writes e sid pid p q)
    (hs : sys.rt.find sid=some s) (hp : p.attempts ≠ [] → s.Binds p) (ha : q.attempts ≠ []) :
    s.Binds q := by
  have stays (h : p.Stays q) : s.Binds q := by
    have hb := h.binding
    simp only [PhaseRecord.binding,Prod.mk.injEq] at hb
    obtain ⟨_,_,_,_,ht,hg,he,hl,hr,hi,_⟩ := hb
    rw [CompilerSession.Binds,ht,hg,he,hl,hr,hi]
    refine hp fun hn => ha ?_
    have hmap := h.attempts
    rw [hn] at hmap
    exact List.map_eq_nil_iff.1 hmap
  cases h with
  | moves h => exact stays h.toStays
  | reserves r isRetry now h =>
    cases hs.symm.trans h.session
    obtain ⟨_,_,he⟩ := Runtime.reserved_frame r p s _ isRetry now
    rw [he]
    rfl
  | commits now => exact stays (Runtime.committed_stays p _ now)

theorem Writes.attempts (h : sys.Writes e sid pid p q) (ha : q.attempts ≠ []) :
    p.attempts ≠ [] ∨ ∃ s inputs isRetry,Runtime.Admits sid pid isRetry sys.rt s p inputs := by
  have stays (h : p.Stays q) : p.attempts ≠ [] := by
    intro hp
    have hl := h.attempts
    rw [hp] at hl
    exact ha (List.map_eq_nil_iff.1 hl)
  cases h with
  | moves h => exact .inl (stays h.toStays)
  | reserves r isRetry now h => exact .inr ⟨_,_,_,h⟩
  | commits now => exact .inl (stays (Runtime.committed_stays p _ now))

end System

/-- Every session of the process is lawful. -/
def Runtime.Lawful (rt : Runtime) : Prop := ∀ sid s,rt.find sid=some s → s.Lawful sid.value

namespace System

variable {sys : System} {e : Event} {sid : CompilerSessionId}

/-- A session that an event finds. -/
theorem apply_session_lawful {s s' : CompilerSession} (he : e.inProcess) (hl : sys.rt.Lawful)
    (hs : sys.rt.find sid=some s) (hs' : (sys.apply e).rt.find sid=some s') :
    s'.Lawful sid.value := by
  have hlaw := hl sid s hs
  have hkeyed : ∀ sid s,sys.rt.find sid=some s → ∀ pid p,s.findPhase pid=some p → p.id=pid :=
    fun sid s hs => (hl sid s hs).keyed
  obtain ⟨_,ht,hkeep⟩ := (sys.apply_keeps he).sessions sid.value s hs
  cases hs'.symm.trans ht
  have hid : s'.id=s.id := congrArg (·.1) hkeep.binding
  have hplan : s'.plan=s.plan := congrArg (·.2.1) hkeep.binding
  -- forwards from a phase of `s`, and backwards from one of `s'`
  have next {pid : CompilerPhaseId} {p : PhaseRecord} (hp : s.findPhase pid=some p) :
      ∃ q,s'.findPhase pid=some q ∧ sys.Writes e sid pid p q := by
    obtain ⟨q,hq,hw⟩ := apply_writes he hkeyed (Option.bind_eq_some_iff.2 ⟨s,hs,hp⟩)
    obtain ⟨_,ht,hq⟩ := Option.bind_eq_some_iff.1 hq
    cases hs'.symm.trans ht
    exact ⟨q,hq,hw⟩
  have before {pid : CompilerPhaseId} {q : PhaseRecord} (hq : s'.findPhase pid=some q) :
      ∃ p,s.findPhase pid=some p ∧ sys.Writes e sid pid p q := by
    obtain ⟨p,hp,_⟩ := hkeep.before hq
    obtain ⟨q',hq',hw⟩ := next hp
    cases hq.symm.trans hq'
    exact ⟨p,hp,hw⟩
  have done {pid : CompilerPhaseId} (h : s.Done pid) : s'.Done pid := by
    obtain ⟨p,hp,hc⟩ := h
    obtain ⟨q,hq,hw⟩ := next hp
    exact ⟨q,hq,hw.done (hlaw.phases pid p hp) hc⟩
  refine ⟨hid ▸ hlaw.id,hid ▸ hlaw.present,?_,hplan ▸ hlaw.planned,?_,?_,?_,?_,?_⟩
  · intro hz
    have hle := apply_generation he hs hs'
    rw [hz,UInt64.le_zero_iff] at hle
    exact hlaw.generation hle
  · intro pid hpid
    rw [hplan] at hpid
    obtain ⟨p,hp⟩ := hlaw.recorded pid hpid
    obtain ⟨q,hq,_⟩ := next hp
    exact ⟨q,hq⟩
  · intro pid q hq
    obtain ⟨p,hp,hw⟩ := before hq
    exact hw.id.trans (hlaw.keyed pid p hp)
  · intro pid q hq
    obtain ⟨p,hp,hw⟩ := before hq
    rw [hplan]
    exact hw.lawful hs (hlaw.phases pid p hp)
  · intro pid q hq ha
    obtain ⟨p,hp,hw⟩ := before hq
    have hb := hkeep.binding
    simp only [CompilerSession.binding,Prod.mk.injEq] at hb
    obtain ⟨_,_,_,ht,_,hg,he,hl,hr,hi,_⟩ := hb
    rw [CompilerSession.Binds,ht,hg,he,hl,hr,hi]
    exact hw.binds hs (hlaw.bound pid p hp) ha
  · intro pid q hq ha node hn dependency hd
    rw [hplan] at hn
    obtain ⟨p,hp,hw⟩ := before hq
    rcases hw.attempts ha with ha | ⟨_,_,_,hadmits⟩
    · exact done (hlaw.after pid p hp ha node hn dependency hd)
    · -- the reservation found what the phase depends on COMMITTED
      cases hs.symm.trans hadmits.session
      have hready := hadmits.ready
      simp only [PhasePlan.isReady,hn,List.all_eq_true,decide_eq_true_eq] at hready
      have hcommitted := (List.mem_filter.1 (hready dependency hd)).2
      rw [CompilerSession.hasCommitted,Option.any_eq_true] at hcommitted
      obtain ⟨producer,hfound,hstate⟩ := hcommitted
      exact done ⟨producer,hfound,(hlaw.phases _ _ hfound).committed (of_decide_eq_true hstate)⟩

theorem apply_lawful (he : e.inProcess) (hu : e.unadopted) (hl : sys.rt.Lawful) :
    (sys.apply e).rt.Lawful := by
  intro sid s' hs'
  cases hs : sys.rt.find sid with
  | some s => exact apply_session_lawful he hl hs hs'
  | none =>
    rcases apply_known he hu (by rw [hs']; rfl) with hk | ⟨request,w,_,hrt⟩
    · rw [hs] at hk
      cases hk
    rw [hrt] at hs'
    obtain ⟨parts,_,hparts,rfl,rfl,_⟩ := Runtime.createSession_new
      (show (sys.rt.facing w).find sid=none from hs) hs'
    obtain ⟨hid,hn⟩ := Runtime.sessionParts_planned hparts
    exact CompilerSession.newSession_lawful hid hn

/-- A process that starts without sessions and adopts none. -/
theorem run_lawful {events : List Event} (hs : sys.rt.sessions=∅) (he : ∀ e ∈ events,e.inProcess)
    (hu : ∀ e ∈ events,e.unadopted) : (sys.run events).rt.Lawful := by
  induction events using List.reverseRecOn with
  | nil =>
    intro sid s h
    have h : sys.rt.sessions[sid.value]?=some s := h
    rw [hs] at h
    simp at h
  | append_singleton events e ih =>
    rw [run_snoc]
    exact apply_lawful (he e (by simp)) (hu e (by simp)) (ih (fun e h => he e (by simp [h]))
      fun e h => hu e (by simp [h]))

end System

end CompilerFabric
