import CompilerFabric.Core.Store

namespace CompilerFabric

def kSnapshotMagic : Bytes := ascii "CRFSNP01"
def kSnapshotHeaderBytes : Nat := 32

/-- How far the replacement of the snapshot file came. -/
inductive SnapshotOutcome
  | replaced | uncreated | unwritten | unmoved
deriving DecidableEq

/-- The store with the snapshot file beside its journal. -/
structure SnapshotStore where
  journal : PersistenceStore := {}
  snapshot : Option Bytes := none
deriving DecidableEq

namespace SnapshotStore

/-- The first 28 bytes of the snapshot header. -/
def checkedBytes (payload : Bytes) (sequence : UInt64) : Bytes :=
  kSnapshotMagic++(Base.leBytes 2 kPersistenceSchemaVersion.toNat++(Base.leBytes 2 0++
    (Base.leBytes 4 payload.length++(Base.leBytes 8 sequence.toNat++
      Base.leBytes 4 (crc32c payload).toNat))))

def snapshotBytes (payload : Bytes) (sequence : UInt64) : Bytes :=
  checkedBytes payload sequence++
    (Base.leBytes 4 (crc32c (checkedBytes payload sequence)).toNat++payload)

/-- `write_snapshot`: a temporary file takes the place of the snapshot at once. -/
def writeSnapshot (s : SnapshotStore) (outcome : SnapshotOutcome) (payload : Bytes)
    (sequence : UInt64) : Result Unit × SnapshotStore :=
  if s.journal.options.maxRecordBytes<payload.length then
    (refuse .persistenceBoundsExceeded "snapshot exceeds the configured ceiling",s)
  else match outcome with
    | .uncreated => (refuse .persistenceIo "snapshot temporary file could not be created",s)
    | .unwritten => (refuse .persistenceIo "snapshot write failed",s)
    | .unmoved => (refuse .persistenceIo "snapshot replacement failed",s)
    | .replaced => (.ok (),{ s with snapshot := some (snapshotBytes payload sequence) })

def readSnapshot (s : SnapshotStore) : Result (Option Bytes) :=
  match s.snapshot with
  | none => .ok none
  | some file =>
      let payloadLength := getWord 4 12 file
      let payload := (file.drop kSnapshotHeaderBytes).take payloadLength
      if s.journal.options.maxRecordBytes+kSnapshotHeaderBytes<file.length then
        refuse .persistenceBoundsExceeded "snapshot exceeds the configured ceiling"
      else if file.length<kSnapshotHeaderBytes then
        refuse .persistenceTruncated "snapshot header is incomplete"
      else if file.take 8 ≠ kSnapshotMagic then
        refuse .persistenceCorrupt "snapshot magic is invalid"
      else if getWord 2 8 file ≠ kPersistenceSchemaVersion.toNat then
        refuse .persistenceSchemaMismatch "snapshot schema version mismatch"
      else if getWord 4 28 file ≠ (crc32c (file.take 28)).toNat then
        refuse .persistenceCorrupt "snapshot header checksum failed"
      else if s.journal.options.maxRecordBytes<payloadLength then
        refuse .persistenceBoundsExceeded "snapshot payload is too large"
      else if file.length-kSnapshotHeaderBytes<payloadLength then
        refuse .persistenceTruncated "snapshot payload is incomplete"
      else if getWord 4 24 file ≠ (crc32c payload).toNat then
        refuse .persistenceCorrupt "snapshot payload checksum failed"
      else .ok (some payload)

variable {s s' : SnapshotStore} {outcome : SnapshotOutcome} {payload : Bytes} {sequence : UInt64}

/-- A snapshot replaces its own file and leaves the journal as it is. -/
theorem writeSnapshot_ok (h : s.writeSnapshot outcome payload sequence=(.ok (),s')) :
    payload.length ≤ s.journal.options.maxRecordBytes ∧
      s'={ s with snapshot := some (snapshotBytes payload sequence) } := by
  unfold writeSnapshot at h
  split_ifs at h with hl
  · simp [refuse] at h
  · cases outcome with
    | replaced => exact ⟨Nat.not_lt.1 hl,by simpa using h.symm⟩
    | uncreated => simp [refuse] at h
    | unwritten => simp [refuse] at h
    | unmoved => simp [refuse] at h

theorem writeSnapshot_journal :
    (s.writeSnapshot outcome payload sequence).2.journal=s.journal := by
  unfold writeSnapshot
  split_ifs
  · rfl
  · cases outcome <;> rfl

theorem kSnapshotMagic_eq : kSnapshotMagic=Base.leBytes 8 0x3130504E53465243 := by decide

@[simp] theorem checkedBytes_length (payload : Bytes) (sequence : UInt64) :
    (checkedBytes payload sequence).length=28 := by
  simp [checkedBytes,kSnapshotMagic_eq]

/-- What was written as a snapshot is read back. -/
theorem readSnapshot_writeSnapshot (hw : s.journal.options.maxRecordBytes<2^32)
    (h : s.writeSnapshot outcome payload sequence=(.ok (),s')) :
    s'.readSnapshot=.ok (some payload) := by
  obtain ⟨hl,rfl⟩ := writeSnapshot_ok h
  have hp : payload.length<256^4 := by omega
  have hs : sequence.toNat<256^8 := sequence.toNat_lt
  have hc : (crc32c payload).toNat<256^4 := UInt32.toNat_lt _
  have hk : (crc32c (checkedBytes payload sequence)).toNat<256^4 := UInt32.toNat_lt _
  have ht : (snapshotBytes payload sequence).take 28=checkedBytes payload sequence := by
    rw [snapshotBytes,List.take_append_of_le_length (by simp),List.take_of_length_le (by simp)]
  have hlen : (snapshotBytes payload sequence).length=kSnapshotHeaderBytes+payload.length := by
    simp [snapshotBytes,kSnapshotHeaderBytes]
    omega
  have hd : (snapshotBytes payload sequence).drop kSnapshotHeaderBytes=payload := by
    rw [snapshotBytes,← List.append_assoc]
    exact List.drop_left' (by simp [kSnapshotHeaderBytes])
  have hm : (snapshotBytes payload sequence).take 8=kSnapshotMagic := by
    rw [snapshotBytes,checkedBytes,List.append_assoc]
    exact List.take_left' (by simp [kSnapshotMagic_eq])
  have hbytes : snapshotBytes payload sequence=Base.leBytes 8 0x3130504E53465243++
      (Base.leBytes 2 kPersistenceSchemaVersion.toNat++(Base.leBytes 2 0++
        (Base.leBytes 4 payload.length++(Base.leBytes 8 sequence.toNat++
          (Base.leBytes 4 (crc32c payload).toNat++(Base.leBytes 4
            (crc32c (checkedBytes payload sequence)).toNat++payload)))))) := by
    rw [snapshotBytes,checkedBytes,kSnapshotMagic_eq]
    simp only [List.append_assoc]
  have hversion : getWord 2 8 (snapshotBytes payload sequence)=
      kPersistenceSchemaVersion.toNat := by
    rw [hbytes,getWord_skip _ (by decide)]
    exact getWord_head _ (by decide)
  have hlength : getWord 4 12 (snapshotBytes payload sequence)=payload.length := by
    rw [hbytes]
    repeat rw [getWord_skip _ (by decide)]
    exact getWord_head _ hp
  have hpayload : getWord 4 24 (snapshotBytes payload sequence)=(crc32c payload).toNat := by
    rw [hbytes]
    repeat rw [getWord_skip _ (by decide)]
    exact getWord_head _ hc
  have hheader : getWord 4 28 (snapshotBytes payload sequence)=
      (crc32c (checkedBytes payload sequence)).toNat := by
    rw [hbytes]
    repeat rw [getWord_skip _ (by decide)]
    exact getWord_head _ hk
  simp only [readSnapshot,hlength,hd,ht,hm,hversion,hpayload,hheader,hlen,List.take_length]
  rw [if_neg (by omega),if_neg (by omega),if_neg (by simp),if_neg (by simp),if_neg (by simp),
    if_neg (by omega),if_neg (by omega),if_neg (by simp)]

end SnapshotStore

end CompilerFabric
