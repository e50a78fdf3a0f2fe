import CompilerFabric.Core.Persistence

namespace CompilerFabric

/-- The shifts that make one table entry of the reflected Castagnoli polynomial. -/
def crc32cBits : Nat → Nat → Nat
  | 0,crc => crc
  | bits+1,crc => crc32cBits bits (if crc&&&1=1 then crc>>>1^^^0x82F63B78 else crc>>>1)

def crc32cTable (i : Nat) : Nat := crc32cBits 8 i

/-- The loop over the bytes. The register is a number below 2^32; it is looked at in every turn,
so that evaluation does not pile up turns. -/
def crc32cLoop : Nat → Bytes → Nat
  | crc,[] => crc
  | 0,value::rest => crc32cLoop (crc32cTable (value.toNat&&&0xFF)) rest
  | crc+1,value::rest =>
      crc32cLoop (crc32cTable (((crc+1)^^^value.toNat)&&&0xFF)^^^(crc+1)>>>8) rest

def crc32c (bytes : Bytes) : UInt32 := UInt32.ofNat (crc32cLoop 0xFFFFFFFF bytes^^^0xFFFFFFFF)

theorem crc32cLoop_eq_foldl (crc : Nat) (bytes : Bytes) : crc32cLoop crc bytes=
    bytes.foldl (fun crc value => crc32cTable ((crc^^^value.toNat)&&&0xFF)^^^crc>>>8) crc := by
  induction bytes generalizing crc with
  | nil => rw [crc32cLoop,List.foldl_nil]
  | cons value rest ih =>
    cases crc with
    | zero => simp [crc32cLoop,ih]
    | succ crc => rw [crc32cLoop,ih,List.foldl_cons]

inductive RecordKind
  | unknown | epochAdvanced | toolchainRegistered | targetRegistered | environmentRegistered
  | policyRegistered | sourceRegistered | sessionCreated | sessionStateChanged | phaseReserved
  | phaseStateChanged | phaseCommitted | phaseRefused | artifactRegistered
  | artifactAuthorityChanged | diagnosticsRecorded | candidateRegistered | recoveryDecided
  | provenanceAppended | sessionRetired | leaseGranted | leaseRevoked
deriving DecidableEq

namespace RecordKind

def values : List RecordKind :=
  [unknown,epochAdvanced,toolchainRegistered,targetRegistered,environmentRegistered,
    policyRegistered,sourceRegistered,sessionCreated,sessionStateChanged,phaseReserved,
    phaseStateChanged,phaseCommitted,phaseRefused,artifactRegistered,artifactAuthorityChanged,
    diagnosticsRecorded,candidateRegistered,recoveryDecided,provenanceAppended,sessionRetired,
    leaseGranted,leaseRevoked]

def raw (kind : RecordKind) : UInt16 := UInt16.ofNat (values.idxOf kind)

/-- `parse_record_kind`. -/
def parse (raw : UInt16) : Option RecordKind := values[raw.toNat]?

/-- Kinds whose payload `Runtime::create` decodes as a session projection. -/
def carriesSession (kind : RecordKind) : Bool :=
  kind ∈ [sessionStateChanged,sessionCreated,phaseCommitted,sessionRetired]

end RecordKind

structure JournalRecord where
  kind : RecordKind := .unknown
  sequence : UInt64 := 0
  atNanos : UInt64 := 0
  payload : Bytes := []
  storedCrc : UInt32 := 0
deriving DecidableEq

inductive LoadOutcome
  | ok | empty | tornTailRepaired | corrupt | schemaMismatch | ioError | boundsExceeded
deriving DecidableEq

structure DurableState where
  outcome : LoadOutcome := .empty
  runtimeEpoch : UInt64 := 0
  lastSequence : UInt64 := 0
  createdAtNanos : UInt64 := 0
  records : List JournalRecord := []
  repairedBytes : Nat := 0
  bytesRead : Nat := 0
  detail : Bytes := []
deriving DecidableEq

def DurableState.trustworthy (s : DurableState) : Bool :=
  s.outcome ∈ [LoadOutcome.ok,.empty,.tornTailRepaired]

structure PersistenceOptions where
  directory : Bytes := []
  name : Bytes := []
  durableAppends : Bool := true
  maxRecordBytes : Nat := 4194304
  maxRecordsPerLoad : Nat := 1048576
  maxJournalBytes : Nat := 1073741824
deriving DecidableEq

def kJournalMagic : Bytes := ascii "CRFJRNL1"
def kJournalHeaderBytes : Nat := 48
def kRecordMagic : Nat := 0x43524652
def kRecordHeaderBytes : Nat := 40

/-- `get_uN(bytes + at)`. -/
def getWord (width offset : Nat) (bytes : Bytes) : Nat :=
  Base.leValue ((bytes.drop offset).take width)

def journalHeaderBytes (epoch created : UInt64) : Bytes :=
  let checked := kJournalMagic++Base.leBytes 2 kPersistenceSchemaVersion.toNat++
    Base.leBytes 2 0++Base.leBytes 4 0++Base.leBytes 8 epoch.toNat++
    Base.leBytes 8 created.toNat
  checked++Base.leBytes 4 (crc32c checked).toNat++Base.leBytes 12 0

/-- `valid_journal_header`: the recorded epoch and creation time. -/
def validJournalHeader (header : Bytes) : Option (UInt64 × UInt64) :=
  if header.length<kJournalHeaderBytes then none
  else if header.take 8 ≠ kJournalMagic then none
  else if getWord 2 8 header ≠ kPersistenceSchemaVersion.toNat then none
  else if getWord 4 32 header ≠ (crc32c (header.take 32)).toNat then none
  else some (UInt64.ofNat (getWord 8 16 header),UInt64.ofNat (getWord 8 24 header))

def recordBytes (kind : RecordKind) (sequence at_ : UInt64) (payload : Bytes) : Bytes :=
  let checked := Base.leBytes 4 kRecordMagic++Base.leBytes 2 kPersistenceSchemaVersion.toNat++
    Base.leBytes 2 kind.raw.toNat++Base.leBytes 8 sequence.toNat++Base.leBytes 8 at_.toNat++
    Base.leBytes 4 payload.length++Base.leBytes 4 (crc32c payload).toNat
  checked++Base.leBytes 4 (crc32c checked).toNat++Base.leBytes 4 0++payload

structure JournalScan where
  outcome : LoadOutcome := .empty
  lastSequence : UInt64 := 0
  validBytes : Nat := 0
  repairedBytes : Nat := 0
  bytesRead : Nat := 0
  records : List JournalRecord := []
  detail : Bytes := []
deriving DecidableEq

def JournalScan.stop (scan : JournalScan) (outcome : LoadOutcome) (cursor : Nat)
    (detail : Bytes) : JournalScan :=
  { scan with outcome,validBytes := cursor,detail }

def atOffset (what : String) (cursor : Nat) : Bytes :=
  ascii what++ascii " at offset "++decimal cursor

/-- The `while (cursor < bytes.size())` loop on the bytes from `cursor` on. Every turn takes
a record header, so the number of bytes bounds its turns. -/
def scanRecords (options : PersistenceOptions) :
    Nat → Nat → UInt64 → Bytes → JournalScan → JournalScan
  | 0,cursor,_,_,scan | _+1,cursor,_,[],scan =>
      { scan with validBytes := cursor,outcome := if scan.records.isEmpty then .empty else .ok }
  | turns+1,cursor,expected,bytes,scan =>
      let payloadLength := getWord 4 24 bytes
      let payload := (bytes.drop kRecordHeaderBytes).take payloadLength
      let sequence := UInt64.ofNat (getWord 8 8 bytes)
      if bytes.length<kRecordHeaderBytes then
        { scan.stop .tornTailRepaired cursor (ascii "journal ends with a partial record header") with
          repairedBytes := bytes.length }
      else if getWord 4 0 bytes ≠ kRecordMagic then
        scan.stop .corrupt cursor (atOffset "journal record magic is invalid" cursor)
      else if getWord 2 4 bytes ≠ kPersistenceSchemaVersion.toNat then
        scan.stop .schemaMismatch cursor (ascii "journal record schema version mismatch")
      else if getWord 4 32 bytes ≠ (crc32c (bytes.take 32)).toNat then
        scan.stop .corrupt cursor (atOffset "journal record header checksum failed" cursor)
      else if options.maxRecordBytes<payloadLength then
        scan.stop .boundsExceeded cursor
          (ascii "journal record declares a payload beyond the configured ceiling")
      else if bytes.length-kRecordHeaderBytes<payloadLength then
        { scan.stop .tornTailRepaired cursor
            (ascii "journal ends with a partially written record") with
          repairedBytes := bytes.length }
      else if getWord 4 28 bytes ≠ (crc32c payload).toNat then
        scan.stop .corrupt cursor (atOffset "journal record payload checksum failed" cursor)
      else match RecordKind.parse (UInt16.ofNat (getWord 2 6 bytes)) with
        | none => scan.stop .corrupt cursor (ascii "journal record kind is unknown")
        | some kind =>
            if sequence<expected then
              scan.stop .corrupt cursor (atOffset "journal sequence is not monotonic" cursor)
            else
              let record := ⟨kind,sequence,UInt64.ofNat (getWord 8 16 bytes),payload,
                UInt32.ofNat (getWord 4 28 bytes)⟩
              let scan := { scan with
                lastSequence := sequence
                records := scan.records++[record] }
              if options.maxRecordsPerLoad<scan.records.length then
                { scan with
                  outcome := .boundsExceeded
                  detail := ascii "journal holds more records than the configured ceiling" }
              else
                scanRecords options turns (cursor+kRecordHeaderBytes+payloadLength) (sequence+1)
                  (bytes.drop (kRecordHeaderBytes+payloadLength)) scan

def scanJournal (bytes : Bytes) (options : PersistenceOptions) : JournalScan :=
  let scan : JournalScan := { bytesRead := bytes.length }
  if bytes.length<kJournalHeaderBytes then
    { scan with outcome := .empty,detail := ascii "journal header is absent" }
  else if (validJournalHeader (bytes.take kJournalHeaderBytes)).isNone then
    { scan with outcome := .corrupt,detail := ascii "journal header failed integrity validation" }
  else scanRecords options bytes.length kJournalHeaderBytes 1 (bytes.drop kJournalHeaderBytes) scan

/-- What the operating system did with one write of the store. -/
inductive DiskOutcome
  | done | torn (written : Nat) | unflushed
deriving DecidableEq

/-- The store with its journal file. `disk` holds the outcomes of the writes to come; past
its end every write succeeds. -/
structure PersistenceStore where
  options : PersistenceOptions := {}
  file : Bytes := []
  lastSequence : UInt64 := 0
  bytes : Nat := 0
  createdNanos : UInt64 := 0
  epoch : UInt64 := 0
  appends : Nat := 0
  disk : List DiskOutcome := []
deriving DecidableEq

namespace PersistenceStore

/-- `write_at`, then `flush` where one is asked for. -/
def writeAt (s : PersistenceStore) (offset : Nat) (data : Bytes) (flush : Bool) :
    Result Unit × PersistenceStore :=
  let put (n : Nat) := s.file.take offset++data.take n++s.file.drop (offset+min n data.length)
  let rest := s.disk.tail
  match s.disk.headD .done with
  | .done => (.ok (),{ s with file := put data.length,disk := rest })
  | .torn n => (refuse .persistenceIo "journal write failed",{ s with file := put n,disk := rest })
  | .unflushed =>
      (if flush then refuse .persistenceIo "journal flush failed" else .ok (),
        { s with file := put data.length,disk := rest })

/-- `append`; `at_` is the wall clock. -/
def append (s : PersistenceStore) (kind : RecordKind) (payload : Bytes) (at_ : UInt64) :
    Result UInt64 × PersistenceStore :=
  if s.options.maxRecordBytes<payload.length then
    (refuse .persistenceBoundsExceeded "record payload exceeds the configured ceiling",s)
  else if s.options.maxJournalBytes<s.bytes+payload.length+kRecordHeaderBytes then
    (refuse .persistenceBoundsExceeded
      "journal size ceiling reached; rotate the snapshot before appending",s)
  else
    let sequence := s.lastSequence+1
    let record := recordBytes kind sequence at_ payload
    match s.writeAt s.bytes record s.options.durableAppends with
    | (.error e,s) => (.error e,s)
    | (.ok (),s) =>
        (.ok sequence,{ s with
          bytes := s.bytes+record.length
          lastSequence := sequence
          appends := s.appends+1 })

def recordEpoch (s : PersistenceStore) (epoch at_ : UInt64) : Result UInt64 × PersistenceStore :=
  match s.append .epochAdvanced (Base.leBytes 8 epoch.toNat) at_ with
  | (.error e,s) => (.error e,s)
  | (.ok sequence,s) =>
      match s.writeAt 0 (journalHeaderBytes epoch s.createdNanos) true with
      | (.error e,s) => (.error e,s)
      | (.ok (),s) => (.ok sequence,{ s with epoch })

def load (s : PersistenceStore) : DurableState :=
  if s.options.maxJournalBytes<s.file.length then
    { outcome := .boundsExceeded
      detail := ascii "journal exceeds the configured byte ceiling" }
  else
    let scan := scanJournal s.file s.options
    let header := (validJournalHeader (s.file.take kJournalHeaderBytes)).getD (0,0)
    { outcome := scan.outcome
      lastSequence := scan.lastSequence
      repairedBytes := scan.repairedBytes
      bytesRead := scan.bytesRead
      records := scan.records
      detail := scan.detail
      runtimeEpoch := header.1
      createdAtNanos := header.2 }

/-- `reset`: the journal is removed and made anew. -/
def reset (s : PersistenceStore) (wall : UInt64) : Result Unit × PersistenceStore :=
  match { s with file := [] }.writeAt 0 (journalHeaderBytes 0 wall) true with
  | (.error e,s) => (.error e,s)
  | (.ok (),s) =>
      (.ok (),{ s with lastSequence := 0,bytes := kJournalHeaderBytes,appends := 0 })

def kForbiddenNameBytes : Bytes := ascii "\\/:*?\"<>|"

/-- `open` on the journal file found at its path; `wall` is the wall clock. -/
def openStore (options : PersistenceOptions) (file : Bytes) (disk : List DiskOutcome)
    (wall : UInt64) : Result Unit × PersistenceStore :=
  let s : PersistenceStore := { options,file,disk }
  if options.directory.isEmpty then
    (refuse .invalidArgument "persistence directory is not configured",s)
  else if options.name.isEmpty then
    (refuse .invalidArgument "persistence name is not configured",s)
  else if options.name.any (· ∈ kForbiddenNameBytes) then
    (refuse .invalidArgument
      "persistence name contains a character that is not valid in a file name",s)
  else if options.maxRecordBytes=0 ∨ kMaxBlobBytes<options.maxRecordBytes then
    (refuse .invalidArgument "maximum record size is out of range",s)
  else if file.isEmpty then
    match s.writeAt 0 (journalHeaderBytes 0 wall) true with
    | (.error e,s) => (.error e,s)
    | (.ok (),s) => (.ok (),{ s with lastSequence := 0,bytes := kJournalHeaderBytes })
  else
    let existing := s.load
    let valid := existing.bytesRead-existing.repairedBytes
    let repaired : PersistenceStore :=
      if existing.outcome=.tornTailRepaired then { s with file := s.file.take valid } else s
    if !existing.trustworthy then
      (.error ⟨.persistenceCorrupt,
        ascii "existing journal is not trustworthy: "++existing.detail⟩,s)
    else
      (.ok (),{ repaired with
        lastSequence := existing.lastSequence
        epoch := existing.runtimeEpoch
        createdNanos := existing.createdAtNanos
        bytes := valid })

end PersistenceStore

end CompilerFabric
