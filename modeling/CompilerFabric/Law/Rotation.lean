import CompilerFabric.Core.Snapshot
import CompilerFabric.Runtime.Boot

namespace CompilerFabric

open Base Base.Action

namespace Runtime

/-- The diagnostic sets of the phases of a session, in the order of its plan. -/
def sessionDiagnostics (rt : Runtime) (session : CompilerSession) : List DiagnosticSet :=
  session.plan.order.filterMap fun id =>
    (session.findPhase id).bind fun record =>
      if record.diagnostics.id.present then rt.diagnostics.find record.diagnostics.id else none

/-- The state that `Runtime::snapshot` collects, in the order of the session identities. -/
def stateSnapshot (rt : Runtime) (store : PersistenceStore) : StateSnapshot :=
  let sessions := rt.sessions.toList.map (·.2)
  { runtimeEpoch := rt.epoch
    lastSequence := store.lastSequence
    encodedSessions := sessions.map encodeSession
    encodedArtifacts := sessions.flatMap fun session =>
      (session.intermediates.filterMap (rt.artifacts.find ·.id)).map encodeArtifact
    encodedDiagnostics := sessions.flatMap fun session =>
      (rt.sessionDiagnostics session).map encodeDiagnosticSet }

/-- `Runtime::snapshot` beside the snapshot file at hand. -/
def snapshot (outcome : SnapshotOutcome) (file : Option Bytes) (rt : Runtime) :
    Result Unit × Option Bytes × Runtime :=
  match rt.persistence with
  | none => (refuse .unsupported "persistence is disabled for this runtime",file,rt)
  | some store =>
      let state := rt.stateSnapshot store
      match SnapshotStore.writeSnapshot ⟨store,file⟩ outcome (encodeSnapshot state)
          state.lastSequence with
      | (.error e,s) => (.error e,s.snapshot,{ rt with persistence := some s.journal })
      | (.ok (),s) =>
          (.ok (),s.snapshot,(recordEvidence { rt with persistence := some s.journal }).2)

end Runtime

/-- A journal that holds its header and no record yet. -/
def PersistenceStore.Fresh (s : PersistenceStore) : Prop :=
  s.file.length=kJournalHeaderBytes ∧ s.bytes=kJournalHeaderBytes

/-- The refusal of `append` at the size ceiling of the journal. -/
def ceilingReached : Status :=
  .of .persistenceBoundsExceeded "journal size ceiling reached; rotate the snapshot before appending"

namespace SnapshotStore

/-- The sessions that `Runtime::create` brings back from the two files. It never calls
`read_snapshot`, so they come out of the journal. -/
def recoverable (s : SnapshotStore) (w : World) (options : RuntimeOptions)
    (adapters : List Adapter) : Table CompilerSession :=
  (Runtime.create w options adapters s.journal.file).2.sessions

/-- What a rotation of the journal into the snapshot is to do: the journal starts afresh, an
append that the ceiling refused and that has room in a fresh journal goes through, and a restart
brings back the same sessions. -/
structure Rotated (s s' : SnapshotStore) : Prop where
  fresh : s'.journal.Fresh
  reopened : ∀ kind payload at_,(s.journal.append kind payload at_).1=.error ceilingReached →
    kJournalHeaderBytes+payload.length+kRecordHeaderBytes ≤ s.journal.options.maxJournalBytes →
    s'.journal.disk.headD .done=.done → ∃ sequence,(s'.journal.append kind payload at_).1=.ok sequence
  recovered : ∀ w options adapters,
    s'.recoverable w options adapters=s.recoverable w options adapters

variable {s s' : SnapshotStore} {outcome : SnapshotOutcome} {payload : Bytes} {sequence : UInt64}

theorem writeAt_error_code {j j' : PersistenceStore} {offset : Nat} {data : Bytes} {flush : Bool}
    {e : Status} (h : j.writeAt offset data flush=(.error e,j')) : e.code=.persistenceIo := by
  unfold PersistenceStore.writeAt at h
  dsimp only at h
  generalize j.disk.headD .done=turn at h
  cases turn with
  | done => cases h
  | torn n => cases h; rfl
  | unflushed =>
    cases flush with
    | true => cases h; rfl
    | false => cases h

theorem ceiling_of_refused {j : PersistenceStore} {kind : RecordKind} {at_ : UInt64}
    (h : (j.append kind payload at_).1=.error ceilingReached) :
    j.options.maxJournalBytes<j.bytes+payload.length+kRecordHeaderBytes := by
  by_contra hc
  by_cases hm : j.options.maxRecordBytes<payload.length
  · rw [PersistenceStore.append,if_pos hm] at h
    have hne : (refuse .persistenceBoundsExceeded "record payload exceeds the configured ceiling" :
      Result UInt64) ≠ .error ceilingReached := by decide
    exact hne h
  · rw [PersistenceStore.append_eq ⟨Nat.not_lt.1 hm,Nat.not_lt.1 hc⟩] at h
    split at h
    · next e j1 hw =>
      have hcode := writeAt_error_code hw
      rw [Except.error.inj h] at hcode
      cases hcode
    · cases h

/-- The snapshot rotates the journal exactly where there was nothing to rotate. -/
theorem writeSnapshot_rotated_iff (h : s.writeSnapshot outcome payload sequence=(.ok (),s')) :
    Rotated s s' ↔ s.journal.Fresh := by
  have hj : s'.journal=s.journal := by rw [(writeSnapshot_ok h).2]
  constructor
  · intro hr
    exact hj ▸ hr.fresh
  · intro hf
    refine ⟨hj ▸ hf,?_,fun w options adapters => by rw [recoverable,recoverable,hj]⟩
    intro kind payload at_ hrefused hroom
    have hc := ceiling_of_refused hrefused
    rw [hf.2] at hc
    omega

end SnapshotStore

namespace Sample

/-- A store whose journal ends at 150 bytes. -/
def smallStore : PersistenceStore :=
  (PersistenceStore.openStore
    { directory := ascii "state",name := ascii "fabric",maxJournalBytes := 150 } [] [] 1).2

/-- The small store with one record in it. -/
def crowded : PersistenceStore := (smallStore.append .provenanceAppended (List.replicate 40 7) 2).2

end Sample

namespace SnapshotStore

theorem fresh_store_rotated : Rotated ⟨Sample.smallStore,none⟩
    ⟨Sample.smallStore,some (snapshotBytes [1] 0)⟩ :=
  (@writeSnapshot_rotated_iff ⟨Sample.smallStore,none⟩ _ .replaced [1] 0 (by decide +kernel)).2
    ⟨by decide +kernel,by decide +kernel⟩

/-- A journal at its ceiling still refuses after the snapshot that was to make room. -/
theorem not_rotated_of_crowded :
    (Sample.crowded.append .provenanceAppended (List.replicate 40 7) 3).1=.error ceilingReached ∧
    ∃ s',writeSnapshot ⟨Sample.crowded,none⟩ .replaced [1] 1=(.ok (),s') ∧
      (s'.journal.append .provenanceAppended (List.replicate 40 7) 3).1=.error ceilingReached ∧
      ¬Rotated ⟨Sample.crowded,none⟩ s' := by
  have hrefused : (Sample.crowded.append .provenanceAppended (List.replicate 40 7) 3).1=
      .error ceilingReached := by decide +kernel
  refine ⟨hrefused,_,rfl,hrefused,fun h => ?_⟩
  obtain ⟨n,hn⟩ := h.reopened _ _ 3 hrefused (by decide +kernel) (by decide +kernel)
  rw [hrefused] at hn
  cases hn

end SnapshotStore

/-- The calls of a runtime that write to its store. -/
inductive StoreCall
  | append (kind : RecordKind) (payload : Bytes) (at_ : UInt64)
  | recordEpoch (epoch at_ : UInt64)
  | writeSnapshot (outcome : SnapshotOutcome) (payload : Bytes) (sequence : UInt64)

namespace SnapshotStore

def perform (s : SnapshotStore) : StoreCall → SnapshotStore
  | .append kind payload at_ => { s with journal := (s.journal.append kind payload at_).2 }
  | .recordEpoch epoch at_ => { s with journal := (s.journal.recordEpoch epoch at_).2 }
  | .writeSnapshot outcome payload sequence => (s.writeSnapshot outcome payload sequence).2

theorem append_grows (j : PersistenceStore) (kind : RecordKind) (payload : Bytes) (at_ : UInt64) :
    (j.append kind payload at_).2.options=j.options ∧ j.bytes ≤ (j.append kind payload at_).2.bytes := by
  rcases h : j.append kind payload at_ with ⟨_ | sequence,j'⟩
  · rcases PersistenceStore.append_error h with rfl | ⟨_,n,rfl⟩
    · exact ⟨rfl,Nat.le_refl _⟩
    · exact ⟨rfl,Nat.le_refl _⟩
  · obtain ⟨_,_,rfl⟩ := PersistenceStore.append_ok h
    exact ⟨rfl,Nat.le_add_right _ _⟩

theorem recordEpoch_grows (j : PersistenceStore) (epoch at_ : UInt64) :
    (j.recordEpoch epoch at_).2.options=j.options ∧ j.bytes ≤ (j.recordEpoch epoch at_).2.bytes := by
  have ha := append_grows j .epochAdvanced (leBytes 8 epoch.toNat) at_
  unfold PersistenceStore.recordEpoch
  split
  · next e j1 h => rwa [h] at ha
  · next sequence j1 h =>
    rw [h] at ha
    obtain ⟨n,hw,_⟩ := j1.writeAt_spec 0 (journalHeaderBytes epoch j1.createdNanos) true
    split
    · next e j2 h2 =>
      rw [h2] at hw
      cases hw
      exact ha
    · next j2 h2 =>
      rw [h2] at hw
      cases hw
      exact ha

theorem perform_grows (s : SnapshotStore) (call : StoreCall) :
    (s.perform call).journal.options=s.journal.options ∧
      s.journal.bytes ≤ (s.perform call).journal.bytes := by
  cases call with
  | append kind payload at_ => exact append_grows s.journal kind payload at_
  | recordEpoch epoch at_ => exact recordEpoch_grows s.journal epoch at_
  | writeSnapshot outcome payload sequence =>
    rw [perform,writeSnapshot_journal]
    exact ⟨rfl,Nat.le_refl _⟩

theorem run_grows (s : SnapshotStore) (calls : List StoreCall) :
    (calls.foldl perform s).journal.options=s.journal.options ∧
      s.journal.bytes ≤ (calls.foldl perform s).journal.bytes := by
  induction calls generalizing s with
  | nil => exact ⟨rfl,Nat.le_refl _⟩
  | cons call calls ih =>
    obtain ⟨ho,hb⟩ := s.perform_grows call
    obtain ⟨ho',hb'⟩ := ih (s.perform call)
    exact ⟨ho'.trans ho,Nat.le_trans hb hb'⟩

/-- An append that the ceiling refused is refused from then on, whatever snapshots are written. -/
theorem append_refused_forever {kind : RecordKind} {payload : Bytes} {at_ : UInt64} {s : SnapshotStore}
    (h : (s.journal.append kind payload at_).1=.error ceilingReached) (calls : List StoreCall)
    (later : UInt64) : ∃ e,((calls.foldl perform s).journal.append kind payload later).1=.error e ∧
      e.code=.persistenceBoundsExceeded := by
  obtain ⟨ho,hb⟩ := s.run_grows calls
  have hc := ceiling_of_refused h
  have hf : ¬(calls.foldl perform s).journal.Fits payload := by
    rintro ⟨_,hroom⟩
    rw [ho] at hroom
    omega
  obtain ⟨e,he,hcode⟩ := PersistenceStore.append_refused hf kind later
  exact ⟨e,by rw [he],hcode⟩

end SnapshotStore

end CompilerFabric
