import CompilerFabric.Core.Store
import CompilerFabric.Law.Atomic
import CompilerFabric.Runtime.Steps

namespace CompilerFabric

open Base Base.Action

namespace PersistenceStore

/-- `append` has room for the payload, and the disk takes the record. -/
def takes (s : PersistenceStore) (payload : Bytes) : Bool :=
  payload.length ≤ s.options.maxRecordBytes &&
    s.bytes+payload.length+kRecordHeaderBytes ≤ s.options.maxJournalBytes &&
    match s.disk.headD .done with
    | .done => true
    | .torn _ => false
    | .unflushed => !s.options.durableAppends

theorem writeAt_toBool (s : PersistenceStore) (offset : Nat) (data : Bytes) (flush : Bool) :
    (s.writeAt offset data flush).1.toBool=match s.disk.headD .done with
      | .done => true
      | .torn _ => false
      | .unflushed => !flush := by
  unfold writeAt
  cases s.disk.headD .done with
  | done | torn => rfl
  | unflushed => cases flush <;> rfl

theorem append_toBool (s : PersistenceStore) (kind : RecordKind) (payload : Bytes) (at_ : UInt64) :
    (s.append kind payload at_).1.toBool=s.takes payload := by
  by_cases hf : s.Fits payload
  · have hw := s.writeAt_toBool s.bytes (s.appended kind payload at_).bytes s.options.durableAppends
    rw [append_eq hf,takes,decide_eq_true hf.1,decide_eq_true hf.2,← hw]
    split
    · next h => rw [h]; rfl
    · next h => rw [h]; rfl
  · have ⟨e,he,_⟩ := append_refused hf kind at_
    rw [he,takes]
    rcases Decidable.not_and_iff_or_not.1 hf with h | h <;> simp [h,Except.toBool]

end PersistenceStore

namespace Runtime

/-- The reservation of an admitted call, before its authority is noted. -/
def reservation (rt : Runtime) (sid : CompilerSessionId) (pid : CompilerPhaseId)
    (phase : PhaseRecord) (isRetry : Bool) (workspace : Workspace) : Reservation :=
  { session := sid
    phase := pid
    phaseGeneration := phase.nextGeneration
    invocation := ⟨rt.invocationIds.next.1,.initial⟩
    attempt := rt.attemptIds.next.1
    attemptGeneration := phase.nextAttemptGeneration isRetry
    lease := ⟨rt.leases.allocator.next.1,.initial⟩
    kind := phase.kind
    workspace := workspace }

/-- The identities of an attempt and of an invocation are drawn. -/
def drawn (rt : Runtime) : Runtime := (nextInvocation (nextAttempt rt).2).2

/-- The state in which an admitted `reserve` asks for its persist. -/
def underReservation (rt : Runtime) (w : World) (sid : CompilerSessionId) (pid : CompilerPhaseId)
    (isRetry : Bool) (session : CompilerSession) (phase : PhaseRecord)
    (inputs : List (Ref .intermediate)) (workspace : Workspace) : Runtime :=
  (grantLease ⟨session.id,session.generation⟩ ⟨pid,phase.nextGeneration⟩ w.now
    (ascii (if isRetry then "retry of a failed phase" else "phase execution"))
    rt.drawn).2.modifySession sid
    (·.reserved (rt.reservation sid pid phase isRetry workspace) inputs isRetry w.now)

/-- The journal, where there is one, refuses the record of the session. -/
def recordRefused (rt : Runtime) (sid : CompilerSessionId) : Bool :=
  (rt.find sid).any fun session => rt.persistence.any fun store =>
    !store.takes (rt.encodeSessionBundle session)

/-- Every check passes and the workspace is created, but the journal refuses the record of the
reserved session. -/
def reservationLost (rt : Runtime) (w : World) (sid : CompilerSessionId) (pid : CompilerPhaseId)
    (isRetry : Bool) : Bool :=
  match rt.admission sid pid isRetry,w.workspace with
  | .ok (session,phase,inputs),.ok workspace =>
      (rt.underReservation w sid pid isRetry session phase inputs workspace).recordRefused sid
  | _,_ => false

/-- Nothing the call could have taken is taken, and the phase can be reserved as before. -/
structure NotBegun (rt t : Runtime) : Prop where
  sessions : t.sessions=rt.sessions
  artifacts : t.artifacts=rt.artifacts
  leases : t.leases=rt.leases
  again : ∀ sid pid isRetry,t.admission sid pid isRetry=rt.admission sid pid isRetry

variable {w : World} {rt t u : Runtime} {sid : CompilerSessionId} {pid : CompilerPhaseId}
  {isRetry : Bool} {s : CompilerSession} {p : PhaseRecord} {inputs : List (Ref .intermediate)}
  {workspace : Workspace} {e : Status}

theorem persistSession_toBool (rt : Runtime) :
    (persistSession w sid rt).1.toBool=!rt.recordRefused sid := by
  unfold persistSession recordRefused
  cases rt.find sid with
  | none => rfl
  | some session =>
    rw [Option.any_some]
    dsimp only
    unfold persist
    cases rt.persistence with
    | none => rfl
    | some store =>
      rw [Option.any_some,Bool.not_not,← store.append_toBool .sessionStateChanged _ w.wall]
      dsimp only
      split
      · next h => rw [h]; rfl
      · next h => rw [h]; rfl

theorem reserve_refused (h : rt.admission sid pid isRetry=.error e) :
    reserve w sid pid isRetry rt=(.error e,rt) := by
  rw [reserve,bind_ok (rfl : get rt=_),bind_error (t := rt) (by rw [h]; rfl)]

theorem reserve_unhoused (h : rt.admission sid pid isRetry=.ok (s,p,inputs))
    (hw : w.workspace=.error e) : reserve w sid pid isRetry rt=(.error e,rt.drawn) := by
  rw [reserve,bind_ok (rfl : get rt=_),bind_ok (t := rt) (by rw [h]; rfl)]
  dsimp only
  rw [bind_ok (rfl : nextAttempt rt=_),bind_ok (rfl : nextInvocation _=_),
    bind_error (by rw [hw]; rfl)]
  rfl

/-- What is left of an admitted call is its persist. -/
theorem reserve_admitted (h : rt.admission sid pid isRetry=.ok (s,p,inputs))
    (hw : w.workspace=.ok workspace) : ∃ r,reserve w sid pid isRetry rt=
      (persistSession w sid >>= fun _ => pure r : Op Reservation)
        (rt.underReservation w sid pid isRetry s p inputs workspace) := by
  rw [reserve,bind_ok (rfl : get rt=_),bind_ok (t := rt) (by rw [h]; rfl)]
  dsimp only
  rw [bind_ok (rfl : nextAttempt rt=_),bind_ok (rfl : nextInvocation _=_),
    bind_ok (t := rt.drawn) (by rw [hw]; rfl)]
  exact ⟨_,rfl⟩

/-- Drawing moves the two allocators. -/
theorem drawn_eq (rt : Runtime) : ∃ attemptIds invocationIds issued,
    rt.drawn={ rt with attemptIds,invocationIds,issued } := by
  unfold drawn nextInvocation nextAttempt
  exact ⟨_,_,_,rfl⟩

theorem drawn_notBegun (rt : Runtime) : NotBegun rt rt.drawn := by
  obtain ⟨attemptIds,invocationIds,issued,h⟩ := rt.drawn_eq
  rw [h]
  exact ⟨rfl,rfl,rfl,fun _ _ _ => rfl⟩

/-- A reservation that was written shows: the phase has one more attempt. -/
theorem Reserves.not_unreserved {r : Reservation} (h : Reserves w sid pid isRetry rt t s p inputs r) :
    ¬NotBegun rt t := by
  intro hu
  have ha := (admission_iff sid pid).1 h.admitted
  have hbefore : rt.phase sid pid=some p := Option.bind_eq_some_iff.2 ⟨s,ha.session,ha.phase⟩
  have hafter := h.record
  rw [Runtime.phase,find_of_sessions hu.sessions] at hafter
  obtain ⟨history,state,he⟩ := reserved_frame r p s inputs isRetry w.now
  have hsame : p=p.reserved s r inputs isRetry w.now := Option.some.inj (hbefore.symm.trans hafter)
  have hl := congrArg (·.attempts.length) hsame
  rw [he] at hl
  simp [PhaseRecord.bound] at hl

/-- Exactly the reservations that the journal refuses to record are left half made. -/
theorem reserve_atomic_iff (w : World) (sid : CompilerSessionId) (pid : CompilerPhaseId)
    (isRetry : Bool) (rt : Runtime) :
    (∀ e t,reserve w sid pid isRetry rt=(.error e,t) → NotBegun rt t) ↔
      rt.reservationLost w sid pid isRetry=false := by
  unfold reservationLost
  cases ha : rt.admission sid pid isRetry with
  | error e =>
    refine ⟨fun _ => rfl,?_⟩
    intro _ e' t h
    rw [reserve_refused ha] at h
    cases h
    exact ⟨rfl,rfl,rfl,fun _ _ _ => rfl⟩
  | ok found =>
    have ⟨s,p,inputs⟩ := found
    cases hw : w.workspace with
    | error e =>
      refine ⟨fun _ => rfl,?_⟩
      intro _ e' t h
      rw [reserve_unhoused ha hw] at h
      cases h
      exact drawn_notBegun rt
    | ok workspace =>
      have ⟨r,hr⟩ := reserve_admitted ha hw
      dsimp only
      have hp := @persistSession_toBool w sid
        (rt.underReservation w sid pid isRetry s p inputs workspace)
      cases hx : persistSession w sid (rt.underReservation w sid pid isRetry s p inputs workspace) with
      | mk result t =>
        rw [hx] at hp
        cases result with
        | ok _ =>
          rw [bind_ok hx] at hr
          constructor
          · intro _
            have hp : true=!_ := hp
            simpa using hp.symm
          · intro _ e t h
            rw [hr] at h
            cases h
        | error e =>
          rw [bind_error hx] at hr
          constructor
          · intro h
            have hu := h e t hr
            rcases reserve_spec w sid pid hr with ⟨_,e',_,he | he⟩ | ⟨_,_,_,_,hres,_⟩
            · rw [ha] at he
              cases he
            · rw [hw] at he
              cases he
            · exact absurd hu hres.not_unreserved
          · intro h
            rw [h] at hp
            cases hp

/-- A torn write of the record of a reservation: the phase has its new attempt and is refused
another reservation. -/
theorem not_atomic_torn :
    (Sample.persisted.rt.facing Sample.torn).reservationLost Sample.torn ⟨1⟩ ⟨1⟩ false=true ∧
    ∃ e t,reserve Sample.torn ⟨1⟩ ⟨1⟩ false (Sample.persisted.rt.facing Sample.torn)=(.error e,t) ∧
      ¬NotBegun (Sample.persisted.rt.facing Sample.torn) t := by
  have h : ((Sample.persisted.rt.facing Sample.torn).reservationLost Sample.torn ⟨1⟩ ⟨1⟩ false,
      (reserve Sample.torn ⟨1⟩ ⟨1⟩ false (Sample.persisted.rt.facing Sample.torn)).1.toBool,
      ((Sample.persisted.rt.facing Sample.torn).admission ⟨1⟩ ⟨1⟩ false).toBool,
      ((reserve Sample.torn ⟨1⟩ ⟨1⟩ false
        (Sample.persisted.rt.facing Sample.torn)).2.admission ⟨1⟩ ⟨1⟩ false).toBool)=
      (true,false,true,false) := by decide +kernel
  generalize Sample.persisted.rt.facing Sample.torn=rt at h ⊢
  simp only [Prod.mk.injEq] at h
  have ⟨hlost,hresult,hbefore,hafter⟩ := h
  refine ⟨hlost,?_⟩
  cases hr : reserve Sample.torn ⟨1⟩ ⟨1⟩ false rt with
  | mk result t =>
    rw [hr] at hresult hafter
    cases result with
    | ok _ => cases hresult
    | error e =>
      refine ⟨e,t,rfl,?_⟩
      intro hu
      rw [hu.again,hbefore] at hafter
      cases hafter

end Runtime

end CompilerFabric
