import CompilerFabric.Base.Walk
import CompilerFabric.Runtime.Identities

namespace CompilerFabric

open Base Base.Action

section Pointwise

variable {α : Type} {P : α → α → Prop}

instance Option.Rel.isPreorder [IsPreorder α P] : IsPreorder (Option α) (Option.Rel P) where
  refl
    | none => .none
    | some a => .some (Std.Refl.refl a)
  trans := by
    intro a b c hab hbc
    cases hab with
    | none => exact hbc
    | some h =>
      cases hbc with
      | some h' => exact .some (IsTrans.trans _ _ _ h h')

theorem rel_mono {Q : α → α → Prop} {x y : Option α} (h : Option.Rel P x y)
    (hQ : ∀ a b,P a b → Q a b) : Option.Rel Q x y := by
  cases h with
  | none => exact .none
  | some h => exact .some (hQ _ _ h)

/-- Only the entry at `k` is written. -/
theorem Table.rel_modify {P : UInt64 → α → α → Prop} [∀ i,IsPreorder α (P i)] (m : Table α)
    (k : UInt64) {f : α → α} (h : ∀ a,m[k]?=some a → P k a (f a)) (i : UInt64) :
    Option.Rel (P i) m[i]? (m.modify k f)[i]? := by
  rw [Std.ExtTreeMap.getElem?_modify]
  split
  · next hk =>
    have hk := Std.LawfulEqCmp.eq_of_compare hk
    subst hk
    cases hm : m[k]? with
    | none => exact .none
    | some a => exact .some (h a hm)
  · exact Std.Refl.refl _

end Pointwise

/-- An attempt of the phase is under way. -/
def PhaseState.inFlight (s : PhaseState) : Bool :=
  s ∈ [preparing,running,produced,validating,commitReady]

namespace PhaseRecord

abbrev Path : PhaseState → List PhaseTransition → PhaseState → Prop :=
  Walk PhaseTransition.src PhaseTransition.dst fun a b => isLegalPhaseTransition a b

/-- From `p` to `p'` by the transitions `ts`, of which the history shows the newest. -/
structure Took (p : PhaseRecord) (ts : List PhaseTransition) (p' : PhaseRecord) : Prop where
  path : Path p.state ts p'.state
  history : p.history.length ≤ kMaxPhaseTransitions →
    p'.history=keepLast kMaxPhaseTransitions (p.history++ts)

theorem Took.trans {p q r : PhaseRecord} {ts us : List PhaseTransition} (h : p.Took ts q)
    (h' : q.Took us r) : p.Took (ts++us) r where
  path := h.path.append h'.path
  history := by
    intro hp
    have hq := h.history hp
    rw [h'.history (hq ▸ length_keepLast_le),hq,keepLast_append_of_keepLast,List.append_assoc]

theorem Took.of_same {p p' : PhaseRecord} (hs : p'.state=p.state) (hh : p'.history=p.history) :
    p.Took [] p' where
  path := hs ▸ .nil _
  history := by
    intro hp
    rw [List.append_nil,hh,keepLast_of_length_le hp]

theorem appendTransition_took (p : PhaseRecord) {next : PhaseState} (reason : Bytes) (now : UInt64)
    (h : isLegalPhaseTransition p.state next) :
    p.Took [⟨p.state,next,now,reason⟩] (p.appendTransition next reason now) where
  path := Walk.single (e := (⟨p.state,next,now,reason⟩ : PhaseTransition)) h
  history := by
    intro hp
    simp only [appendTransition]
    split
    · next hf =>
      have hl : p.history.length=kMaxPhaseTransitions := Nat.le_antisymm hp hf
      have hd : 1-kMaxPhaseTransitions=0 := by decide
      simp [keepLast,hl,List.drop_append,hd]
    · next hf =>
      rw [keepLast_of_length_le]
      simp only [List.length_append,List.length_cons,List.length_nil]
      omega

/-- What a phase is there for, from its creation on. -/
def role (p : PhaseRecord) := (p.kind,p.adapterPhase)

/-- What reservation writes: the generations and references a phase is bound to. -/
def binding (p : PhaseRecord) :=
  (p.id,p.generation,p.attemptGeneration,p.lease,p.toolchain,p.target,p.environment,p.policy,
    p.source,p.irGeneration,p.inputs,p.role)

/-- What a completion writes. -/
def production (p : PhaseRecord) := (p.outputs,p.committedOutputDigest,p.diagnostics)

/-- Some path of legal transitions leads from `p` to `p'`. -/
def Follows (p p' : PhaseRecord) : Prop := p'.role=p.role ∧ ∃ ts,p.Took ts p'

instance : IsPreorder PhaseRecord Follows where
  refl _ := ⟨rfl,[],.of_same rfl rfl⟩
  trans := by
    intro p q r h h'
    have ⟨hr,ts,ht⟩ := h
    have ⟨hr',us,hu⟩ := h'
    exact ⟨hr'.trans hr,ts++us,ht.trans hu⟩

/-- The phase does not become COMMITTED. -/
structure Opens (p p' : PhaseRecord) : Prop where
  took : p.Follows p'
  entered : p'.state=.committed → p.state=.committed

instance : IsPreorder PhaseRecord Opens where
  refl _ := ⟨Std.Refl.refl _,fun h => h⟩
  trans _ _ _ h h' := ⟨IsTrans.trans _ _ _ h.took h'.took,fun hr => h.entered (h'.entered hr)⟩

/-- Where a transition towards `b` leaves a phase that is in `a`. -/
def reach (a b : PhaseState) : PhaseState :=
  if isLegalPhaseTransition a b || kRoutes.any fun via =>
    isLegalPhaseTransition a via && isLegalPhaseTransition via b then b else a

theorem reach_inFlight {a b : PhaseState} (hb : b ≠ .preparing) (h : (reach a b).inFlight) :
    a.inFlight := by
  revert hb h
  cases a <;> cases b <;> decide

/-- What reservation writes stays, and no attempt begins. -/
structure Stays (p p' : PhaseRecord) : Prop where
  took : p.Follows p'
  binding : p'.binding=p.binding
  attempts : p'.attempts.map (·.id)=p.attempts.map (·.id)
  flight : p'.state.inFlight → p.state.inFlight

instance : IsPreorder PhaseRecord Stays where
  refl _ := ⟨Std.Refl.refl _,rfl,rfl,fun h => h⟩
  trans _ _ _ h h' := ⟨IsTrans.trans _ _ _ h.took h'.took,h'.binding.trans h.binding,
    h'.attempts.trans h.attempts,fun hf => h.flight (h'.flight hf)⟩

theorem Stays.generation {p p' : PhaseRecord} (h : Stays p p') : p'.generation=p.generation :=
  congrArg (·.2.1) h.binding

/-- What only reservation and commit write stays, and the phase does not become COMMITTED. -/
structure Moves (p p' : PhaseRecord) : Prop extends Stays p p' where
  commit : p'.commit=p.commit
  entered : p'.state=.committed → p.state=.committed

instance : IsPreorder PhaseRecord Moves where
  refl _ := ⟨Std.Refl.refl _,rfl,fun h => h⟩
  trans _ _ _ h h' := ⟨IsTrans.trans _ _ _ h.toStays h'.toStays,h'.commit.trans h.commit,
    fun hr => h.entered (h'.entered hr)⟩

/-- What a completion writes stays as well. -/
structure Quiet (p p' : PhaseRecord) : Prop extends Moves p p' where
  production : p'.production=p.production

instance : IsPreorder PhaseRecord Quiet where
  refl _ := ⟨Std.Refl.refl _,rfl⟩
  trans _ _ _ h h' := ⟨IsTrans.trans _ _ _ h.toMoves h'.toMoves,h'.production.trans h.production⟩

/-- A phase that failed carries the class it failed with. -/
def Caused (p : PhaseRecord) : Prop := p.state=.failed → p.failure ≠ .none

/-- Nor is a phase left failed without a cause. -/
structure Calm (p p' : PhaseRecord) : Prop extends Quiet p p' where
  cause : p.Caused → p'.Caused

instance : IsPreorder PhaseRecord Calm where
  refl _ := ⟨Std.Refl.refl _,fun h => h⟩
  trans _ _ _ h h' := ⟨IsTrans.trans _ _ _ h.toQuiet h'.toQuiet,fun hc => h'.cause (h.cause hc)⟩

/-- A relation wide enough for what most of the locked parts write. -/
class Allows (P : PhaseRecord → PhaseRecord → Prop) : Prop extends IsPreorder PhaseRecord P where
  calm {p q : PhaseRecord} (h : Calm p q) : P p q

instance : Allows Quiet := ⟨fun h => h.toQuiet⟩

instance : Allows Calm := ⟨fun h => h⟩

theorem Moves.opens {p q : PhaseRecord} (h : Moves p q) : Opens p q := ⟨h.took,h.entered⟩

theorem Quiet.trans {p q r : PhaseRecord} (h : Quiet p q) (h' : Quiet q r) : Quiet p r :=
  IsTrans.trans _ _ _ h h'

/-- What only `recordTransition`, reservation and commit write. -/
def outline (p : PhaseRecord) :=
  (p.state,p.history,p.binding,p.attempts.map (·.id),p.commit)

/-- A write to other fields. -/
theorem Moves.note {p p' : PhaseRecord} (h : p'.outline=p.outline) : Moves p p' := by
  simp only [outline,Prod.mk.injEq] at h
  obtain ⟨hs,hh,hb,ha,hc⟩ := h
  have hr : p'.role=p.role := congrArg (·.2.2.2.2.2.2.2.2.2.2.2) hb
  exact ⟨⟨⟨hr,[],.of_same hs hh⟩,hb,ha,fun hf => hs ▸ hf⟩,hc,fun he => hs ▸ he⟩

theorem Quiet.note {p p' : PhaseRecord} (h : p'.outline=p.outline)
    (hp : p'.production=p.production) : Quiet p p' := ⟨.note h,hp⟩

theorem modifyLastAttempt_quiet (p : PhaseRecord) {f : PhaseAttempt → PhaseAttempt}
    (h : ∀ a,(f a).id=a.id) : Quiet p (p.modifyLastAttempt f) := by
  have hi : (p.modifyLastAttempt f).attempts.map (·.id)=p.attempts.map (·.id) := ?_
  · refine .note ?_ rfl
    rw [outline,hi]
    rfl
  simp only [modifyLastAttempt]
  cases hl : p.attempts.getLast? with
  | none => simp [List.getLast?_eq_none_iff.1 hl]
  | some a =>
    have ⟨init,he⟩ := List.getLast?_eq_some_iff.1 hl
    simp [he,h]

theorem modifyAttempt_quiet (p : PhaseRecord) (id : AttemptId) {f : PhaseAttempt → PhaseAttempt}
    (h : ∀ a,(f a).id=a.id) : Quiet p (p.modifyAttempt id f) := by
  have hi : (p.modifyAttempt id f).attempts.map (·.id)=p.attempts.map (·.id) := ?_
  · refine .note ?_ rfl
    rw [outline,hi]
    rfl
  simp only [modifyAttempt]
  apply List.ext_getElem?
  intro i
  simp only [List.getElem?_map,List.getElem?_modify]
  split
  · cases p.attempts[i]? with
    | none => rfl
    | some a => simp [h]
  · simp

/-- One recorded transition writes the state and the history, nothing else. -/
theorem recordTransition_frame (p : PhaseRecord) (next : PhaseState) (reason : Bytes)
    (now : UInt64) : ∃ history state,p.recordTransition next reason now=
      { p with history,state } ∧ (state=p.state ∨ state=next) := by
  unfold recordTransition
  split_ifs
  · exact ⟨_,_,rfl,.inl rfl⟩
  · exact ⟨_,_,rfl,.inr rfl⟩
  · split
    · exact ⟨_,_,rfl,.inr rfl⟩
    · exact ⟨_,_,rfl,.inl rfl⟩

theorem recordTransition_state (p : PhaseRecord) (next : PhaseState) (reason : Bytes)
    (now : UInt64) : (p.recordTransition next reason now).state=reach p.state next := by
  unfold recordTransition
  by_cases hs : p.state=next
  · rw [if_pos hs,reach]
    split
    · exact hs
    · rfl
  rw [if_neg hs]
  by_cases hl : isLegalPhaseTransition p.state next
  · rw [if_pos hl,reach,if_pos (by rw [hl]; rfl)]
    rfl
  rw [if_neg hl]
  split
  · next via hv =>
    have ha := List.any_eq_true.2 ⟨via,List.mem_of_find?_eq_some hv,List.find?_some hv⟩
    rw [reach,if_pos (by rw [ha,Bool.or_true])]
    rfl
  · next hn =>
    have ha : ¬(kRoutes.any fun via =>
        isLegalPhaseTransition p.state via && isLegalPhaseTransition via next) := by
      intro ha
      have ⟨via,hv,h⟩ := List.any_eq_true.1 ha
      exact absurd h (List.find?_eq_none.1 hn via hv)
    rw [reach,if_neg]
    rw [Bool.or_eq_true]
    exact not_or.2 ⟨hl,ha⟩

theorem recordTransition_took (p : PhaseRecord) (next : PhaseState) (reason : Bytes)
    (now : UInt64) : p.Follows (p.recordTransition next reason now) := by
  unfold recordTransition
  split_ifs with hs hl
  · exact ⟨rfl,[],.of_same rfl rfl⟩
  · exact ⟨rfl,_,p.appendTransition_took reason now hl⟩
  · split
    · next via hv =>
      have hv := List.find?_some hv
      rw [Bool.and_eq_true] at hv
      exact ⟨rfl,_,(p.appendTransition_took _ now hv.1).trans (appendTransition_took _ _ now hv.2)⟩
    · exact ⟨rfl,[],.of_same rfl rfl⟩

theorem recordTransition_opens (p : PhaseRecord) {next : PhaseState} (reason : Bytes)
    (now : UInt64) (h : next ≠ .committed) : p.Opens (p.recordTransition next reason now) := by
  refine ⟨p.recordTransition_took next reason now,?_⟩
  have ⟨history,state,he,hs⟩ := p.recordTransition_frame next reason now
  rw [he]
  intro hc
  rcases hs with hs | hs
  · exact hs ▸ hc
  · exact absurd (hs ▸ hc) h

theorem recordTransition_quiet (p : PhaseRecord) {next : PhaseState} (reason : Bytes)
    (now : UInt64) (h : next ≠ .committed) (hn : next ≠ .preparing) :
    Quiet p (p.recordTransition next reason now) := by
  have ho := p.recordTransition_opens reason now h
  have hr := p.recordTransition_state next reason now
  have ⟨history,state,he,hs⟩ := p.recordTransition_frame next reason now
  rw [he] at ho hr ⊢
  refine ⟨⟨⟨ho.took,rfl,rfl,?_⟩,rfl,ho.entered⟩,rfl⟩
  intro hf
  rw [hr] at hf
  exact reach_inFlight hn hf

theorem recordTransition_failure (p : PhaseRecord) (next : PhaseState) (reason : Bytes)
    (now : UInt64) : (p.recordTransition next reason now).failure=p.failure := by
  have ⟨_,_,he,_⟩ := p.recordTransition_frame next reason now
  rw [he]

theorem reach_failed {a b : PhaseState} (hb : b ≠ .failed) (h : reach a b=.failed) :
    a=.failed := by
  revert hb h
  cases a <;> cases b <;> decide

theorem recordTransition_caused (p : PhaseRecord) {next : PhaseState} (reason : Bytes)
    (now : UInt64) (hn : next ≠ .failed) (hp : p.Caused) :
    (p.recordTransition next reason now).Caused := by
  intro hf
  rw [recordTransition_state] at hf
  rw [recordTransition_failure]
  exact hp (reach_failed hn hf)

theorem recordTransition_calm (p : PhaseRecord) {next : PhaseState} (reason : Bytes)
    (now : UInt64) (h : next ∉ [.committed,.preparing,.failed]) :
    Calm p (p.recordTransition next reason now) := by
  simp only [List.mem_cons,List.not_mem_nil,or_false,not_or] at h
  exact ⟨p.recordTransition_quiet reason now h.1 h.2.1,p.recordTransition_caused reason now h.2.2⟩

theorem Calm.note {p p' : PhaseRecord} (h : p'.outline=p.outline)
    (hp : p'.production=p.production) (hf : p'.failure=p.failure) : Calm p p' := by
  refine ⟨.note h hp,fun hc hs => ?_⟩
  rw [hf]
  exact hc ((congrArg (·.1) h).symm.trans hs)

/-- A write that names a cause. -/
theorem Quiet.calm {p q : PhaseRecord} (h : Quiet p q) (hf : q.failure ≠ .none) : Calm p q :=
  ⟨h,fun _ _ => hf⟩

section Operations

variable (p : PhaseRecord) (now : UInt64) (detail : Bytes)

theorem Follows.note {p p' : PhaseRecord} (hr : p'.role=p.role) (hs : p'.state=p.state)
    (hh : p'.history=p.history) : p.Follows p' :=
  ⟨hr,[],.of_same hs hh⟩

theorem Stays.note {p p' : PhaseRecord} (hs : p'.state=p.state) (hh : p'.history=p.history)
    (hb : p'.binding=p.binding) (ha : p'.attempts.map (·.id)=p.attempts.map (·.id)) : Stays p p' :=
  ⟨.note (congrArg (·.2.2.2.2.2.2.2.2.2.2.2) hb) hs hh,hb,ha,fun h => hs ▸ h⟩

theorem Stays.record {p q : PhaseRecord} {next : PhaseState} {reason : Bytes} {now : UInt64}
    (hn : next ≠ .preparing) (h : Stays p q) :
    Stays p (q.recordTransition next reason now) := by
  refine IsTrans.trans _ _ _ h ⟨q.recordTransition_took next reason now,?_,?_,?_⟩
  rotate_left 2
  · intro hf
    rw [q.recordTransition_state] at hf
    exact reach_inFlight hn hf
  · have ⟨_,_,he,_⟩ := q.recordTransition_frame next reason now
    rw [he]
    rfl
  · have ⟨_,_,he,_⟩ := q.recordTransition_frame next reason now
    rw [he]

theorem Stays.last {p q : PhaseRecord} {f : PhaseAttempt → PhaseAttempt}
    (hf : ∀ a,(f a).id=a.id) (h : Stays p q) : Stays p (q.modifyLastAttempt f) :=
  IsTrans.trans _ _ _ h (q.modifyLastAttempt_quiet hf).toStays

theorem Quiet.record {p q : PhaseRecord} {next : PhaseState} {reason : Bytes} {now : UInt64}
    (hn : next ∉ [.committed,.preparing]) (h : Quiet p q) :
    Quiet p (q.recordTransition next reason now) := by
  simp only [List.mem_cons,List.not_mem_nil,or_false,not_or] at hn
  exact h.trans (q.recordTransition_quiet reason now hn.1 hn.2)

theorem Quiet.last {p q : PhaseRecord} {f : PhaseAttempt → PhaseAttempt}
    (hf : ∀ a,(f a).id=a.id) (h : Quiet p q) : Quiet p (q.modifyLastAttempt f) :=
  h.trans (q.modifyLastAttempt_quiet hf)

theorem Quiet.attempt {p q : PhaseRecord} {id : AttemptId} {f : PhaseAttempt → PhaseAttempt}
    (hf : ∀ a,(f a).id=a.id) (h : Quiet p q) :
    Quiet p (q.modifyAttempt id f) :=
  h.trans (q.modifyAttempt_quiet id hf)

theorem Quiet.write {p q : PhaseRecord} (g : PhaseRecord → PhaseRecord)
    (hg : ∀ q,Quiet q (g q)) (h : Quiet p q) : Quiet p (g q) :=
  h.trans (hg q)

theorem fencedInFlight_quiet : Quiet p (p.fencedInFlight detail now) := by
  refine Quiet.write (fun q => { q with
    activeInvocation := {}
    activeProcess := {}
    activeProcessGeneration := {} }) (fun _ => .note rfl rfl) ?_
  refine Quiet.last (fun _ => rfl) ?_
  refine Quiet.record (by decide) ?_
  exact .note rfl rfl

theorem cancelled_quiet : Quiet p (p.cancelled detail now) := by
  refine Quiet.write (fun q => { q with activeInvocation := {} }) (fun _ => .note rfl rfl) ?_
  split
  · refine Quiet.record (by decide) ?_
    refine Quiet.last (fun _ => rfl) ?_
    exact .note rfl rfl
  · exact Std.Refl.refl p

theorem failedBy_quiet (failure : FailureClass) (status : StatusCode) :
    Quiet p (p.failedBy failure status detail now) := by
  unfold failedBy
  split
  · refine Quiet.record (by decide) ?_
    refine Quiet.last (fun _ => rfl) ?_
    exact .note rfl rfl
  · refine Quiet.last (fun _ => rfl) ?_
    exact .note rfl rfl

theorem unprobed_quiet : Quiet p (p.unprobed detail now) := by
  refine Quiet.record (by decide) ?_
  exact .note rfl rfl

theorem commitRefused_quiet (verdict : AuthorityVerdict) :
    Quiet p (p.commitRefused verdict detail now) := by
  refine Quiet.record (by decide) ?_
  refine Quiet.last (fun _ => rfl) ?_
  exact .note rfl rfl

theorem fencedInFlight_calm : Calm p (p.fencedInFlight detail now) := by
  refine (p.fencedInFlight_quiet now detail).calm ?_
  simp only [fencedInFlight,modifyLastAttempt,recordTransition_failure]
  nofun

theorem cancelled_calm : Calm p (p.cancelled detail now) := by
  refine ⟨p.cancelled_quiet now detail,fun hc => ?_⟩
  unfold cancelled
  dsimp only
  split
  · intro _
    show (recordTransition ..).failure ≠ _
    rw [recordTransition_failure]
    nofun
  · exact hc

theorem unprobed_calm : Calm p (p.unprobed detail now) := by
  refine (p.unprobed_quiet now detail).calm ?_
  rw [unprobed,recordTransition_failure]
  nofun

theorem commitRefused_calm (verdict : AuthorityVerdict) :
    Calm p (p.commitRefused verdict detail now) := by
  refine (p.commitRefused_quiet now detail verdict).calm ?_
  rw [commitRefused,recordTransition_failure]
  nofun

theorem attemptReported_quiet (r : Reservation) (report : ExecutionReport) :
    Quiet p (p.attemptReported r report) := by
  refine Quiet.attempt (fun _ => rfl) ?_
  exact Std.Refl.refl p

theorem executionFailed_quiet (r : Reservation) (report : ExecutionReport) :
    Quiet p (p.executionFailed r report now) := by
  refine Quiet.record (by decide) ?_
  refine Quiet.attempt (fun _ => rfl) ?_
  exact .note rfl rfl

theorem produced_quiet (r : Reservation) : Quiet p (p.produced r now) := by
  refine Quiet.attempt (fun _ => rfl) ?_
  refine Quiet.record (by decide) ?_
  exact Std.Refl.refl p

theorem validationFailed_quiet (evidence : ValidationEvidence) :
    Quiet p (Runtime.validationFailed evidence now p) := by
  refine Quiet.record (by decide) ?_
  refine Quiet.last (fun _ => rfl) ?_
  exact .note rfl rfl

theorem resumePhase_quiet : Quiet p (CompilerSession.resumePhase p now) := by
  unfold CompilerSession.resumePhase
  split
  · exact Std.Refl.refl p
  · refine Quiet.write (fun q => { q with
      failure := .none
      lastStatus := .ok
      lastDetail := [] }) (fun _ => .note rfl rfl) ?_
    split_ifs
    · refine Quiet.record (by decide) ?_
      exact Std.Refl.refl p
    · refine Quiet.record (by decide) ?_
      exact Std.Refl.refl p
    · exact Std.Refl.refl p

/-- The class is taken from what does not stay FAILED. -/
theorem resumePhase_calm : Calm p (CompilerSession.resumePhase p now) := by
  refine ⟨p.resumePhase_quiet now,fun hc => ?_⟩
  unfold CompilerSession.resumePhase
  split
  · exact hc
  · next hs =>
    simp only [List.mem_cons,List.not_mem_nil,or_false,not_or] at hs
    intro hf
    split_ifs at hf
    · exact absurd (reach_failed (by decide) ((p.recordTransition_state ..).symm.trans hf)) hs.2.1
    · exact absurd (reach_failed (by decide) ((p.recordTransition_state ..).symm.trans hf)) hs.2.1
    · exact absurd hf hs.2.1

end Operations

end PhaseRecord

namespace CompilerSession

/-- What a session is bound to when it is created. -/
def binding (s : CompilerSession) :=
  (s.id,s.plan,s.compilationGeneration,s.toolchain,s.cooperatingToolchains,s.target,s.environment,
    s.policy,s.source,s.irGeneration,s.adapterName,s.sources)

/-- The session keeps its binding; its state and its phases change as `σ` and `P` allow. -/
structure Evolves (σ : SessionState → SessionState → Prop) (P : PhaseRecord → PhaseRecord → Prop)
    (s s' : CompilerSession) : Prop where
  binding : s'.binding=s.binding
  state : σ s.state s'.state
  phases : ∀ i : UInt64,Option.Rel P s.phases[i]? s'.phases[i]?

variable {σ : SessionState → SessionState → Prop} {P : PhaseRecord → PhaseRecord → Prop}

instance [IsPreorder _ σ] [IsPreorder _ P] : IsPreorder CompilerSession (Evolves σ P) where
  refl _ := ⟨rfl,Std.Refl.refl _,fun _ => Std.Refl.refl _⟩
  trans _ _ _ h h' := ⟨h'.binding.trans h.binding,IsTrans.trans _ _ _ h.state h'.state,
    fun i => IsTrans.trans _ _ _ (h.phases i) (h'.phases i)⟩

theorem Evolves.mono {τ : SessionState → SessionState → Prop}
    {Q : PhaseRecord → PhaseRecord → Prop} {s s' : CompilerSession} (h : Evolves σ P s s')
    (hσ : ∀ a b,σ a b → τ a b) (hP : ∀ p q,P p q → Q p q) : Evolves τ Q s s' := by
  refine ⟨h.binding,hσ _ _ h.state,?_⟩
  intro i
  exact rel_mono (h.phases i) hP

theorem Evolves.policy {s s' : CompilerSession} (h : Evolves σ P s s') : s'.policy=s.policy :=
  congrArg (·.2.2.2.2.2.2.2.1) h.binding

theorem Evolves.adapterName {s s' : CompilerSession} (h : Evolves σ P s s') :
    s'.adapterName=s.adapterName :=
  congrArg (·.2.2.2.2.2.2.2.2.2.2.1) h.binding

theorem Evolves.sources {s s' : CompilerSession} (h : Evolves σ P s s') : s'.sources=s.sources :=
  congrArg (·.2.2.2.2.2.2.2.2.2.2.2) h.binding

/-- A phase of the earlier session is one of the later, and the other way round. -/
theorem Evolves.after {s s' : CompilerSession} {pid : CompilerPhaseId} {p : PhaseRecord}
    (h : Evolves σ P s s') (hp : s.findPhase pid=some p) :
    ∃ q,s'.findPhase pid=some q ∧ P p q := by
  have hi : Option.Rel P (s.findPhase pid) (s'.findPhase pid) := h.phases pid.value
  rw [hp] at hi
  cases hq : s'.findPhase pid with
  | none =>
    rw [hq] at hi
    cases hi
  | some q =>
    rw [hq] at hi
    cases hi with
    | some hi => exact ⟨q,rfl,hi⟩

theorem Evolves.before {s s' : CompilerSession} {pid : CompilerPhaseId} {q : PhaseRecord}
    (h : Evolves σ P s s') (hq : s'.findPhase pid=some q) :
    ∃ p,s.findPhase pid=some p ∧ P p q := by
  have hi : Option.Rel P (s.findPhase pid) (s'.findPhase pid) := h.phases pid.value
  rw [hq] at hi
  cases hp : s.findPhase pid with
  | none =>
    rw [hp] at hi
    cases hi
  | some p =>
    rw [hp] at hi
    cases hi with
    | some hi => exact ⟨p,rfl,hi⟩

variable [IsPreorder _ σ] [IsPreorder _ P]

theorem Evolves.trans {s t u : CompilerSession} (h : Evolves σ P s t) (h' : Evolves σ P t u) :
    Evolves σ P s u := IsTrans.trans _ _ _ h h'

/-- A write to other fields. -/
theorem Evolves.note {s s' : CompilerSession} (hb : s'.binding=s.binding) (hs : s'.state=s.state)
    (hp : s'.phases=s.phases) : Evolves σ P s s' :=
  ⟨hb,hs ▸ Std.Refl.refl _,fun _ => hp ▸ Std.Refl.refl _⟩

omit [IsPreorder _ σ] in
theorem Evolves.enter {s s' : CompilerSession} (hb : s'.binding=s.binding)
    (hs : σ s.state s'.state) (hp : s'.phases=s.phases) : Evolves σ P s s' :=
  ⟨hb,hs,fun _ => hp ▸ Std.Refl.refl _⟩

theorem modifyPhase_evolves (s : CompilerSession) (id : CompilerPhaseId)
    {f : PhaseRecord → PhaseRecord} (h : ∀ p,P p (f p)) : Evolves σ P s (s.modifyPhase id f) :=
  ⟨rfl,Std.Refl.refl _,Table.rel_modify (P := fun _ => P) _ _ fun p _ => h p⟩

theorem findPhase_modifyPhase (s : CompilerSession) (id pid : CompilerPhaseId)
    (f : PhaseRecord → PhaseRecord) :
    (s.modifyPhase id f).findPhase pid=if id=pid then (s.findPhase pid).map f
      else s.findPhase pid := by
  simp only [findPhase,modifyPhase,Std.ExtTreeMap.getElem?_modify]
  by_cases hi : id=pid
  · subst hi
    simp
  · rw [if_neg hi,if_neg]
    intro hc
    exact hi (StrongId.ext (Std.LawfulEqCmp.eq_of_compare hc))

omit [IsPreorder _ P] in
theorem resumed_evolves [PhaseRecord.Allows P] (s : CompilerSession) (now : UInt64) :
    Evolves σ P s (s.resumed now) := by
  unfold resumed
  generalize s.plan.order=order
  induction order generalizing s with
  | nil => exact Std.Refl.refl s
  | cons id rest ih =>
    exact (modifyPhase_evolves s id fun p => PhaseRecord.Allows.calm (p.resumePhase_calm now)).trans (ih _)

end CompilerSession

namespace IntermediateArtifact

/-- What registration writes, and nothing writes again. -/
def made (a : IntermediateArtifact) : IntermediateArtifact :=
  { a with
    generation := {}
    state := .unknown
    authority := .none
    provenance := {}
    validationDetail := []
    current := false }

/-- What an authoritative artifact promises. -/
def Sound (a : IntermediateArtifact) : Prop :=
  a.authority=.authoritative → a.state=.valid ∧ a.current

structure Quiet (a a' : IntermediateArtifact) : Prop where
  made : a'.made=a.made
  authority : a'.authority=.authoritative → a.authority=.authoritative
  sound : a.Sound → a'.Sound

instance : IsPreorder IntermediateArtifact Quiet where
  refl _ := ⟨rfl,fun h => h,fun h => h⟩
  trans _ _ _ h h' := ⟨h'.made.trans h.made,fun ha => h.authority (h'.authority ha),
    fun hs => h'.sound (h.sound hs)⟩

end IntermediateArtifact

namespace ArtifactRegistry

/-- Nothing is registered and nothing becomes authoritative. -/
structure Quiet (r r' : ArtifactRegistry) : Prop where
  entries : ∀ i : UInt64,Option.Rel IntermediateArtifact.Quiet r.entries[i]? r'.entries[i]?
  byPhase : r'.byPhase=r.byPhase
  allocator : r'.allocator=r.allocator

instance : IsPreorder ArtifactRegistry Quiet where
  refl _ := ⟨fun _ => Std.Refl.refl _,rfl,rfl⟩
  trans _ _ _ h h' := ⟨fun i => IsTrans.trans _ _ _ (h.entries i) (h'.entries i),
    h'.byPhase.trans h.byPhase,h'.allocator.trans h.allocator⟩

theorem modify_quiet (r : ArtifactRegistry) (id : IntermediateArtifactId)
    {f : IntermediateArtifact → IntermediateArtifact} (h : ∀ a : IntermediateArtifact,a.Quiet (f a)) :
    Quiet r (r.modify id f) :=
  ⟨Table.rel_modify (P := fun _ => IntermediateArtifact.Quiet) _ _ fun a _ => h a,rfl,rfl⟩

theorem withState_quiet (state : ArtifactState) (detail : Bytes) (a : IntermediateArtifact) :
    a.Quiet (withState state detail a) := by
  unfold withState
  split
  · exact ⟨rfl,(fun h => nomatch h),fun _ h => nomatch h⟩
  · next hn =>
    refine ⟨rfl,fun h => h,?_⟩
    intro hs ha
    have ha : a.authority=.authoritative := ha
    refine ⟨?_,(hs ha).2⟩
    simpa [ha,ArtifactState.isConsumable] using hn

theorem revoked_quiet (generation : CompilerPhaseGeneration) (detail : Bytes)
    (a : IntermediateArtifact) : a.Quiet (revoked generation detail a) := by
  unfold revoked
  split
  · exact Std.Refl.refl a
  · exact ⟨rfl,(fun h => nomatch h),fun _ h => nomatch h⟩

theorem setState_quiet (r : ArtifactRegistry) (id : IntermediateArtifactId) (state : ArtifactState)
    (detail : Bytes) : Quiet r (r.setState id state detail).1 := by
  unfold setState
  split
  · exact Std.Refl.refl r
  · exact r.modify_quiet id (withState_quiet state detail)

theorem revokePhaseOutputs_quiet (r : ArtifactRegistry) (phase : CompilerPhaseId)
    (generation : CompilerPhaseGeneration) (detail : Bytes) :
    Quiet r (r.revokePhaseOutputs phase generation detail) := by
  unfold revokePhaseOutputs
  generalize r.byPhase.getD phase.value []=ids
  induction ids generalizing r with
  | nil => exact Std.Refl.refl r
  | cons id ids ih =>
    exact IsTrans.trans _ _ _ (r.modify_quiet id (revoked_quiet generation detail)) (ih _)

theorem revalidate_quiet (r : ArtifactRegistry) (id : IntermediateArtifactId)
    (probe : FileProbe) : Quiet r (r.revalidate id probe).1 := by
  have gone (state : ArtifactState) (detail : String) (a : IntermediateArtifact) :
      a.Quiet (withdrawn state detail a) := ⟨rfl,(fun h => nomatch h),fun _ h => nomatch h⟩
  unfold revalidate
  split
  · exact Std.Refl.refl r
  · split
    · exact Std.Refl.refl r
    · split
      · exact r.modify_quiet id (gone _ _)
      · exact r.modify_quiet id (gone _ _)
      · split
        · exact r.modify_quiet id (gone _ _)
        · exact r.modify_quiet id fun _ => ⟨rfl,fun h => h,fun h => h⟩

end ArtifactRegistry

namespace SpecIdentity

variable {tag : IdTag} {σ : Type}

/-- The spec changes only with a later generation, as long as there is one. -/
def Advances (e e' : SpecIdentity tag σ) : Prop :=
  e'.generation=e.generation ∧ e'.spec=e.spec ∨ e.generation.value<e'.generation.value ∨
    e'.generation.value=Generation.kMax

instance : IsPreorder (SpecIdentity tag σ) Advances where
  refl _ := .inl ⟨rfl,rfl⟩
  trans := by
    intro a b c h h'
    rcases h' with ⟨hg,hs⟩ | hlt | hm
    · unfold Advances
      rw [hg,hs]
      exact h
    · rcases h with ⟨hg,_⟩ | hlt' | hm
      · exact .inr (.inl (hg ▸ hlt))
      · exact .inr (.inl (UInt64.lt_trans hlt' hlt))
      · rw [hm] at hlt
        have hle := UInt64.toNat_lt c.generation.value
        have hlt := UInt64.lt_iff_toNat_lt.1 hlt
        have hk : Generation.kMax.toNat=2^64-1 := rfl
        omega
    · exact .inr (.inr hm)

theorem next_advances (e : SpecIdentity tag σ) (digest : Digest) (spec : σ) :
    Advances e { e with generation := e.generation.next,digest,spec } := by
  by_cases hm : e.generation.value=Generation.kMax
  · right
    right
    show e.generation.next.value=_
    rw [Generation.next,if_pos hm,hm]
  · right
    left
    have h := e.generation.next_toNat hm
    apply UInt64.lt_iff_toNat_lt.2
    show e.generation.value.toNat<e.generation.next.value.toNat
    omega

end SpecIdentity

namespace SpecRegistry

variable {tag : IdTag} {σ : Type}

/-- No entry goes. -/
def Advances (r r' : SpecRegistry tag σ) : Prop := ∀ id e,r.find id=some e →
  ∃ e',r'.find id=some e' ∧ e.Advances e'

instance : IsPreorder (SpecRegistry tag σ) Advances where
  refl _ _ e h := ⟨e,h,Std.Refl.refl e⟩
  trans := by
    intro a b c h h' id e he
    have ⟨e',he',ha⟩ := h id e he
    have ⟨e'',he'',ha'⟩ := h' id e' he'
    exact ⟨e'',he'',IsTrans.trans _ _ _ ha ha'⟩

theorem internWith_advances {accept : σ → Result σ} {digestOf : σ → Digest}
    {r r' : SpecRegistry tag σ} {spec : σ} {reference : Ref tag}
    (h : r.internWith accept digestOf spec=.ok (reference,r')) : r.Advances r' := by
  simp only [internWith,do_eq_ok] at h
  have ⟨_,_,h⟩ := h
  split at h
  · cases h
    exact Std.Refl.refl r
  · cases h
    intro id e he
    refine ⟨e,?_,Std.Refl.refl e⟩
    have ⟨entry,hentry,hid⟩ := Option.map_eq_some_iff.1 he
    rw [find,Std.ExtTreeMap.getElem?_insertIfNew,if_neg,hentry,Option.map_some,hid]
    rintro ⟨hk,hn⟩
    have hk := Std.LawfulEqCmp.eq_of_compare hk
    rw [hk] at hn
    exact hn (Std.ExtTreeMap.mem_iff_isSome_getElem?.2 (by rw [hentry]; rfl))

theorem reviseWith_advances {missing : String} {accept : σ → Result σ} {digestOf : σ → Digest}
    {r r' : SpecRegistry tag σ} {id : StrongId tag} {spec : σ} {reference : Ref tag}
    (h : r.reviseWith missing accept digestOf id spec=.ok (reference,r')) : r.Advances r' := by
  simp only [reviseWith,do_eq_ok] at h
  have ⟨entry,hentry,_,_,h⟩ := h
  split at h
  · cases h
    exact Std.Refl.refl r
  · cases h
    intro id' e he
    have ⟨found,hfound,hid⟩ := Option.map_eq_some_iff.1 he
    rw [find,Std.ExtTreeMap.getElem?_insert]
    split
    · next hk =>
      have hk := Std.LawfulEqCmp.eq_of_compare hk
      rw [hk,hfound] at hentry
      cases hentry
      subst hid
      exact ⟨_,rfl,SpecIdentity.next_advances _ _ _⟩
    · refine ⟨e,?_,Std.Refl.refl e⟩
      rw [hfound,Option.map_some,hid]

end SpecRegistry

namespace LeaseTable

/-- Nothing is granted: a lease that is held was held before. -/
def Shrinks (t t' : LeaseTable) : Prop := ∀ (i : UInt64) l,t'.entries[i]?=some l → l.held →
  t.entries[i]?=some l

instance : IsPreorder LeaseTable Shrinks where
  refl _ _ _ h _ := h
  trans _ _ _ h h' i l hl hh := h i l (h' i l hl hh) hh

theorem revokedLease_held (reason : Bytes) (l : Lease) : (revokedLease reason l).held=false := by
  unfold revokedLease
  split
  · rfl
  · next h => simpa using h

theorem revoke_shrinks (t : LeaseTable) (id : LeaseId) (reason : Bytes) :
    Shrinks t (t.revoke id reason) := by
  intro i l hl hh
  simp only [revoke,Std.ExtTreeMap.getElem?_modify] at hl
  split at hl
  · have ⟨l₀,_,he⟩ := Option.map_eq_some_iff.1 hl
    rw [← he,revokedLease_held] at hh
    cases hh
  · exact hl

theorem revokePhase_shrinks (t : LeaseTable) (phase : CompilerPhaseId) (reason : Bytes) :
    Shrinks t (t.revokePhase phase reason) := by
  intro i l hl hh
  simp only [revokePhase,Std.ExtTreeMap.getElem?_map] at hl
  have ⟨l₀,h₀,he⟩ := Option.map_eq_some_iff.1 hl
  subst he
  split at hh
  · rw [revokedLease_held] at hh
    cases hh
  · next hp => rw [if_neg hp,h₀]

end LeaseTable

namespace SourceRegistry

/-- What is registered stays as it is. -/
def Grows (r r' : SourceRegistry) : Prop := ∀ id unit,r.find id=some unit → r'.find id=some unit

instance : IsPreorder SourceRegistry Grows where
  refl _ _ _ h := h
  trans _ _ _ h h' id unit hu := h' id unit (h id unit hu)

theorem add_grows {r r' : SourceRegistry} {unit : SourceUnit} {reference : Ref .source}
    (h : r.add unit=.ok (reference,r')) : r.Grows r' := by
  unfold add at h
  split at h
  · cases h
  · cases h
    intro id found hf
    have hmem : id.value ∈ r.entries :=
      Std.ExtTreeMap.mem_iff_isSome_getElem?.2 (Option.isSome_of_mem hf)
    have hkeep (k : UInt64) (u : SourceUnit) :
        (r.entries.insertIfNew k u)[id.value]?=r.entries[id.value]? := by
      rw [Std.ExtTreeMap.getElem?_insertIfNew,if_neg]
      rintro ⟨hk,hnot⟩
      rw [Std.LawfulEqCmp.eq_of_compare hk] at hnot
      exact hnot hmem
    exact (hkeep _ _).trans hf

end SourceRegistry

namespace Runtime

/-- Refused persists are counted and identities numbered off. -/
structure Ledger (rt rt' : Runtime) : Prop where
  failures : rt.persistFailures ≤ rt'.persistFailures
  mints : Mints rt rt'

instance : IsPreorder Runtime Ledger where
  refl _ := ⟨Nat.le_refl _,fun h => h⟩
  trans _ _ _ h h' := ⟨Nat.le_trans h.failures h'.failures,fun hm => h'.mints (h.mints hm)⟩

/-- What no operation of a process takes back. -/
structure Retains (rt rt' : Runtime) : Prop where
  policies : rt.policies.Advances rt'.policies
  adapters : rt.adapters <+: rt'.adapters
  sources : rt.sources.Grows rt'.sources

instance : IsPreorder Runtime Retains where
  refl _ := ⟨Std.Refl.refl _,List.prefix_rfl,Std.Refl.refl _⟩
  trans _ _ _ h h' := ⟨IsTrans.trans _ _ _ h.policies h'.policies,h.adapters.trans h'.adapters,
    IsTrans.trans _ _ _ h.sources h'.sources⟩

/-- A write elsewhere. -/
theorem Retains.same {rt rt' : Runtime} (hp : rt'.policies=rt.policies)
    (ha : rt'.adapters=rt.adapters) (hs : rt'.sources=rt.sources) : Retains rt rt' := by
  refine ⟨?_,?_,?_⟩
  · rw [hp]
    exact Std.Refl.refl _
  · exact ha ▸ List.prefix_rfl
  · rw [hs]
    exact Std.Refl.refl _

/-- What the operations share beside the sessions and the artifacts. -/
def backdrop (rt : Runtime) :=
  (rt.persistFailures,rt.numbering,rt.policies,rt.adapters,rt.sources,rt.leases)

/-- Every session stays, and the one at `i` changes as `σ i` and `P` allow. -/
structure Keeps (σ : UInt64 → SessionState → SessionState → Prop)
    (P : PhaseRecord → PhaseRecord → Prop) (rt rt' : Runtime) : Prop
    extends Ledger rt rt',Retains rt rt' where
  sessions : ∀ (i : UInt64) s,rt.sessions[i]?=some s →
    ∃ s',rt'.sessions[i]?=some s' ∧ CompilerSession.Evolves (σ i) P s s'

/-- No session comes or goes; the one at `i` changes as `σ i` and `P` allow. No artifact is
registered or made authoritative, no completion taken and no lease granted. -/
structure Evolves (σ : UInt64 → SessionState → SessionState → Prop)
    (P : PhaseRecord → PhaseRecord → Prop) (rt rt' : Runtime) : Prop extends Retains rt rt' where
  sessions : ∀ i,Option.Rel (CompilerSession.Evolves (σ i) P) rt.sessions[i]? rt'.sessions[i]?
  artifacts : rt.artifacts.Quiet rt'.artifacts
  registered : rt'.registered=rt.registered
  completions : rt'.completions=rt.completions
  failures : rt.persistFailures ≤ rt'.persistFailures
  mints : Mints rt rt'
  leases : rt.leases.Shrinks rt'.leases

variable {σ : UInt64 → SessionState → SessionState → Prop} {P : PhaseRecord → PhaseRecord → Prop}

instance [∀ i,IsPreorder _ (σ i)] [IsPreorder _ P] : IsPreorder Runtime (Evolves σ P) where
  refl _ := ⟨Std.Refl.refl _,fun _ => Std.Refl.refl _,Std.Refl.refl _,rfl,rfl,Nat.le_refl _,
    (fun h => h),Std.Refl.refl _⟩
  trans _ _ _ h h' := ⟨IsTrans.trans _ _ _ h.toRetains h'.toRetains,
    fun i => IsTrans.trans _ _ _ (h.sessions i) (h'.sessions i),
    IsTrans.trans _ _ _ h.artifacts h'.artifacts,h'.registered.trans h.registered,
    h'.completions.trans h.completions,Nat.le_trans h.failures h'.failures,
    (fun hm => h'.mints (h.mints hm)),IsTrans.trans _ _ _ h.leases h'.leases⟩

instance [∀ i,IsPreorder _ (σ i)] [IsPreorder _ P] : IsPreorder Runtime (Keeps σ P) where
  refl _ := ⟨Std.Refl.refl _,Std.Refl.refl _,fun _ s hs => ⟨s,hs,Std.Refl.refl s⟩⟩
  trans := by
    intro rt rt' rt'' h h'
    refine ⟨IsTrans.trans _ _ _ h.toLedger h'.toLedger,IsTrans.trans _ _ _ h.toRetains h'.toRetains,
      ?_⟩
    intro i s hs
    have ⟨s',hs',he⟩ := h.sessions i s hs
    have ⟨s'',hs'',he'⟩ := h'.sessions i s' hs'
    exact ⟨s'',hs'',he.trans he'⟩

theorem Evolves.keeps {rt rt' : Runtime} (h : Evolves σ P rt rt') : Keeps σ P rt rt' := by
  refine ⟨⟨h.failures,h.mints⟩,h.toRetains,?_⟩
  intro i s hs
  have hi := h.sessions i
  rw [hs] at hi
  generalize rt'.sessions[i]?=found at hi
  cases hi with
  | some hi => exact ⟨_,rfl,hi⟩

theorem Keeps.phase {rt rt' : Runtime} (h : Keeps σ P rt rt') {sid : CompilerSessionId}
    {pid : CompilerPhaseId} {p : PhaseRecord} (hp : rt.phase sid pid=some p) :
    ∃ p',rt'.phase sid pid=some p' ∧ P p p' := by
  have ⟨s,hs,hp⟩ := Option.bind_eq_some_iff.1 hp
  have ⟨s',hs',hk⟩ := h.sessions sid.value s hs
  obtain ⟨p',hp',hpp⟩ := hk.after hp
  exact ⟨p',Option.bind_eq_some_iff.2 ⟨s',hs',hp'⟩,hpp⟩

theorem phase_modifySession {rt t : Runtime} {id sid : CompilerSessionId} {pid : CompilerPhaseId}
    {f : CompilerSession → CompilerSession}
    (h : t.sessions=rt.sessions.modify id.value f) :
    t.phase sid pid=if id=sid then ((rt.find sid).map f).bind (·.findPhase pid)
      else rt.phase sid pid := by
  simp only [Runtime.phase,Runtime.find,h,Std.ExtTreeMap.getElem?_modify]
  by_cases hi : id=sid
  · subst hi
    simp
  · rw [if_neg hi,if_neg]
    intro hc
    exact hi (StrongId.ext (Std.LawfulEqCmp.eq_of_compare hc))

theorem Keeps.mono {τ : UInt64 → SessionState → SessionState → Prop}
    {Q : PhaseRecord → PhaseRecord → Prop} {rt rt' : Runtime} (h : Keeps σ P rt rt')
    (hσ : ∀ i a b,σ i a b → τ i a b) (hP : ∀ p q,P p q → Q p q) : Keeps τ Q rt rt' := by
  refine ⟨h.toLedger,h.toRetains,?_⟩
  intro i s hs
  have ⟨s',hs',he⟩ := h.sessions i s hs
  exact ⟨s',hs',he.mono (hσ i) hP⟩

theorem Evolves.mono {τ : UInt64 → SessionState → SessionState → Prop}
    {Q : PhaseRecord → PhaseRecord → Prop} {rt rt' : Runtime} (h : Evolves σ P rt rt')
    (hσ : ∀ i a b,σ i a b → τ i a b) (hP : ∀ p q,P p q → Q p q) : Evolves τ Q rt rt' :=
  ⟨h.toRetains,fun i => rel_mono (h.sessions i) fun _ _ hs => hs.mono (hσ i) hP,h.artifacts,
    h.registered,h.completions,h.failures,h.mints,h.leases⟩

/-- A quiet step leaves every session in its state. -/
abbrev Quiet : Runtime → Runtime → Prop := Evolves (fun _ => Eq) PhaseRecord.Quiet

variable [∀ i,IsPreorder _ (σ i)] [IsPreorder _ P]

theorem Evolves.write {rt rt' : Runtime} (hs : rt'.sessions=rt.sessions)
    (ha : rt'.artifacts=rt.artifacts) (hr : rt'.registered=rt.registered)
    (hc : rt'.completions=rt.completions) (hf : rt.persistFailures ≤ rt'.persistFailures)
    (hm : Mints rt rt') (hk : Retains rt rt') (hl : rt.leases.Shrinks rt'.leases) :
    Evolves σ P rt rt' :=
  ⟨hk,fun _ => hs ▸ Std.Refl.refl _,ha ▸ Std.Refl.refl _,hr,hc,hf,hm,hl⟩

/-- A write elsewhere. -/
theorem Evolves.aside {rt rt' : Runtime} (hs : rt'.sessions=rt.sessions)
    (ha : rt'.artifacts=rt.artifacts) (hr : rt'.registered=rt.registered)
    (hc : rt'.completions=rt.completions) (h : rt'.backdrop=rt.backdrop) : Evolves σ P rt rt' := by
  simp only [backdrop,Prod.mk.injEq] at h
  have ⟨hf,hn,hp,hd,hu,hl⟩ := h
  refine .write hs ha hr hc (Nat.le_of_eq hf.symm) (.same hn) (.same hp hd hu) ?_
  rw [hl]
  exact Std.Refl.refl _

theorem modifySession_evolves (rt : Runtime) (id : CompilerSessionId)
    {f : CompilerSession → CompilerSession}
    (h : ∀ s,rt.find id=some s → CompilerSession.Evolves (σ id.value) P s (f s)) :
    Evolves σ P rt (rt.modifySession id f) :=
  ⟨.same rfl rfl rfl,Table.rel_modify (P := fun i => CompilerSession.Evolves (σ i) P) _ _ h,Std.Refl.refl _,rfl,
    rfl,Nat.le_refl _,.same rfl,Std.Refl.refl _⟩

theorem modifyPhase_evolves (rt : Runtime) (id : CompilerSessionId) (phase : CompilerPhaseId)
    {f : PhaseRecord → PhaseRecord} (h : ∀ p,P p (f p)) :
    Evolves σ P rt (rt.modifyPhase id phase f) :=
  rt.modifySession_evolves id fun s _ => s.modifyPhase_evolves phase h

theorem artifacts_evolves (rt : Runtime) {artifacts : ArtifactRegistry}
    (h : rt.artifacts.Quiet artifacts) : Evolves σ P rt { rt with artifacts } :=
  ⟨.same rfl rfl rfl,fun _ => Std.Refl.refl _,h,rfl,rfl,Nat.le_refl _,.same rfl,Std.Refl.refl _⟩

end Runtime

end CompilerFabric
