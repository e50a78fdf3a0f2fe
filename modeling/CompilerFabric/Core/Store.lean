import CompilerFabric.Core.Scan

namespace CompilerFabric

/-- A file after bytes were written at an offset inside it. -/
def overwrite (file : Bytes) (offset : Nat) (data : Bytes) : Bytes :=
  file.take offset++data++file.drop (offset+data.length)

section Overwrite

variable {file data : Bytes} {offset : Nat}

theorem overwrite_length (h : offset ≤ file.length) :
    (overwrite file offset data).length=max file.length (offset+data.length) := by
  simp only [overwrite,List.length_append,List.length_take,List.length_drop]
  omega

/-- The front of the file is out of reach of a write behind it. -/
theorem overwrite_append (front : Bytes) : overwrite (front++file) (front.length+offset) data=
    front++overwrite file offset data := by
  have hd : (front++file).drop (front.length+offset+data.length)=file.drop (offset+data.length) := by
    rw [Nat.add_assoc,← List.drop_drop,List.drop_left]
  have ht : (front++file).take (front.length+offset)=front++file.take offset := by
    rw [List.take_append,List.take_of_length_le (by omega),Nat.add_sub_cancel_left]
  rw [overwrite,overwrite,hd,ht,List.append_assoc,List.append_assoc,List.append_assoc]

end Overwrite

namespace PersistenceStore

variable {s s' : PersistenceStore} {offset : Nat} {data payload : Bytes} {flush : Bool} {e : Status}
  {kind : RecordKind} {epoch at_ sequence : UInt64}

/-- A write leaves a start of its bytes in the file, all of them where it reports success. -/
theorem writeAt_spec (s : PersistenceStore) (offset : Nat) (data : Bytes) (flush : Bool) : ∃ n,
    (s.writeAt offset data flush).2=
      { s with file := overwrite s.file offset (data.take n),disk := s.disk.tail } ∧
    ((s.writeAt offset data flush).1=.ok () → data.length ≤ n) := by
  unfold writeAt
  cases s.disk.headD .done with
  | done => exact ⟨data.length,by simp [overwrite],fun _ => Nat.le_refl _⟩
  | torn n => exact ⟨n,by simp [overwrite],fun h => by cases h⟩
  | unflushed => exact ⟨data.length,by simp [overwrite],fun _ => Nat.le_refl _⟩

theorem writeAt_ok (h : s.writeAt offset data flush=(.ok (),s')) :
    s'={ s with file := overwrite s.file offset data,disk := s.disk.tail } := by
  obtain ⟨n,hs,hn⟩ := s.writeAt_spec offset data flush
  rw [h] at hs hn
  rw [List.take_of_length_le (hn rfl)] at hs
  exact hs

theorem writeAt_error (h : s.writeAt offset data flush=(.error e,s')) :
    ∃ n,s'={ s with file := overwrite s.file offset (data.take n),disk := s.disk.tail } := by
  obtain ⟨n,hs,_⟩ := s.writeAt_spec offset data flush
  rw [h] at hs
  exact ⟨n,hs⟩

/-- The two ceilings that `append` checks. -/
def Fits (s : PersistenceStore) (payload : Bytes) : Prop :=
  payload.length ≤ s.options.maxRecordBytes ∧
    s.bytes+payload.length+kRecordHeaderBytes ≤ s.options.maxJournalBytes

/-- The record that `append` makes of its arguments. -/
def appended (s : PersistenceStore) (kind : RecordKind) (payload : Bytes) (at_ : UInt64) :
    JournalRecord :=
  ⟨kind,s.lastSequence+1,at_,payload,crc32c payload⟩

theorem append_eq (h : s.Fits payload) (kind : RecordKind) (at_ : UInt64) :
    s.append kind payload at_=
      match s.writeAt s.bytes (s.appended kind payload at_).bytes s.options.durableAppends with
      | (.error e,s) => (.error e,s)
      | (.ok (),s1) =>
          (.ok (s.lastSequence+1),{ s1 with
            bytes := s1.bytes+(s.appended kind payload at_).bytes.length
            lastSequence := s.lastSequence+1
            appends := s1.appends+1 }) := by
  rw [append,if_neg (Nat.not_lt.2 h.1),if_neg (Nat.not_lt.2 h.2)]
  rfl

theorem append_refused (h : ¬s.Fits payload) (kind : RecordKind) (at_ : UInt64) :
    ∃ e,s.append kind payload at_=(.error e,s) ∧ e.code=.persistenceBoundsExceeded := by
  by_cases h1 : s.options.maxRecordBytes<payload.length
  · exact ⟨_,by rw [append,if_pos h1]; rfl,rfl⟩
  · have h2 : s.options.maxJournalBytes<s.bytes+payload.length+kRecordHeaderBytes := by
      by_contra h2
      exact h ⟨Nat.not_lt.1 h1,Nat.not_lt.1 h2⟩
    exact ⟨_,by rw [append,if_neg h1,if_pos h2]; rfl,rfl⟩

/-- What a successful `append` checked and did. -/
theorem append_ok (h : s.append kind payload at_=(.ok sequence,s')) :
    s.Fits payload ∧ sequence=s.lastSequence+1 ∧
    s'={ s with
      file := overwrite s.file s.bytes (s.appended kind payload at_).bytes
      disk := s.disk.tail
      bytes := s.bytes+(s.appended kind payload at_).bytes.length
      lastSequence := s.lastSequence+1
      appends := s.appends+1 } := by
  by_cases hf : s.Fits payload
  · rw [append_eq hf] at h
    split at h
    · simp at h
    · next s1 hw =>
      simp only [Prod.mk.injEq,Except.ok.injEq] at h
      obtain ⟨rfl,rfl⟩ := h
      rw [writeAt_ok hw]
      exact ⟨hf,rfl,rfl⟩
  · obtain ⟨e,he,_⟩ := append_refused hf kind at_
    rw [he] at h
    cases h

/-- A refused `append` left the store alone; a failed one left a part of its record behind. -/
theorem append_error (h : s.append kind payload at_=(.error e,s')) : s'=s ∨ s.Fits payload ∧
    ∃ n,s'={ s with
      file := overwrite s.file s.bytes ((s.appended kind payload at_).bytes.take n)
      disk := s.disk.tail } := by
  by_cases hf : s.Fits payload
  · rw [append_eq hf] at h
    split at h
    · next s1 hw =>
      simp only [Prod.mk.injEq] at h
      obtain ⟨n,hn⟩ := writeAt_error hw
      exact .inr ⟨hf,n,h.2 ▸ hn⟩
    · simp at h
  · obtain ⟨e',he,_⟩ := append_refused hf kind at_
    rw [he] at h
    simp only [Prod.mk.injEq] at h
    exact .inl h.2.symm

theorem recordEpoch_ok (h : s.recordEpoch epoch at_=(.ok sequence,s')) :
    ∃ s1,s.append .epochAdvanced (Base.leBytes 8 epoch.toNat) at_=(.ok sequence,s1) ∧
      s'={ s1 with
        file := overwrite s1.file 0 (journalHeaderBytes epoch s1.createdNanos)
        disk := s1.disk.tail
        epoch } := by
  unfold recordEpoch at h
  split at h
  · simp at h
  · next s1 ha =>
    split at h
    · simp at h
    · next s2 hw =>
      simp only [Prod.mk.injEq,Except.ok.injEq] at h
      obtain ⟨rfl,rfl⟩ := h
      exact ⟨s1,ha,by rw [writeAt_ok hw]⟩

/-- The journal file holds the records `rs` in full, and `tail` behind them. -/
structure Logs (s : PersistenceStore) (rs : List JournalRecord) (tail : Bytes) : Prop where
  header : (validJournalHeader (s.file.take kJournalHeaderBytes)).isSome
  body : s.file.drop kJournalHeaderBytes=rs.flatMap JournalRecord.bytes++tail
  numbered : Numbered 1 rs
  sound : ∀ r ∈ rs,r.Sealed s.options
  width : s.options.maxRecordBytes<2^32
  within : s.file.length ≤ max kJournalHeaderBytes s.options.maxJournalBytes

/-- The store also knows where its records end. -/
structure Holds (s : PersistenceStore) (rs : List JournalRecord) (tail : Bytes) : Prop
    extends Logs s rs tail where
  ends : s.bytes=kJournalHeaderBytes+(rs.flatMap JournalRecord.bytes).length
  last : s.lastSequence=UInt64.ofNat rs.length

variable {rs : List JournalRecord} {tail : Bytes}

theorem Logs.long (h : s.Logs rs tail) : kJournalHeaderBytes ≤ s.file.length := by
  by_contra hl
  have hs := h.header
  rw [validJournalHeader,if_pos (by rw [List.length_take]; omega)] at hs
  cases hs

theorem Logs.length (h : s.Logs rs tail) : s.file.length=
    kJournalHeaderBytes+((rs.flatMap JournalRecord.bytes).length+tail.length) := by
  have hl := h.long
  have hb := congrArg List.length h.body
  rw [List.length_drop,List.length_append] at hb
  omega

theorem Logs.ne_nil (h : s.Logs rs tail) : s.file ≠ [] := by
  intro hn
  have hl := h.long
  rw [hn] at hl
  exact absurd hl (by decide)

theorem Logs.file_eq (h : s.Logs rs tail) : s.file=
    s.file.take kJournalHeaderBytes++(rs.flatMap JournalRecord.bytes++tail) := by
  rw [← h.body,List.take_append_drop]

theorem length_le_flatMap : rs.length ≤ (rs.flatMap JournalRecord.bytes).length := by
  induction rs with
  | nil => exact Nat.le_refl _
  | cons r rs ih =>
    rw [List.flatMap_cons,List.length_append,List.length_cons,r.bytes_length]
    omega

/-- What the scan makes of a file whose records fit its ceiling. -/
theorem Logs.scan (h : s.Logs rs tail) (hc : rs.length ≤ s.options.maxRecordsPerLoad) :
    ∃ turns cursor,tail.length ≤ turns ∧ scanJournal s.file s.options=
      scanRecords s.options turns cursor (1+UInt64.ofNat rs.length) tail
        { bytesRead := s.file.length,lastSequence := UInt64.ofNat rs.length,records := rs } := by
  have hl := h.length
  have hk : rs.length ≤ (rs.flatMap JournalRecord.bytes).length := length_le_flatMap
  obtain ⟨turns,ht⟩ : ∃ turns,s.file.length=rs.length+turns := ⟨s.file.length-rs.length,by omega⟩
  refine ⟨turns,kJournalHeaderBytes+(rs.flatMap JournalRecord.bytes).length,by omega,?_⟩
  have hh : (validJournalHeader (s.file.take kJournalHeaderBytes)).isNone=false := by
    simpa using h.header
  rw [scanJournal,if_neg (Nat.not_lt.2 h.long),hh,h.body]
  dsimp only
  rw [if_neg Bool.false_ne_true,ht,
    scanRecords_append h.width h.numbered h.sound (by simpa using hc),h.numbered.last,
    List.nil_append]

theorem Logs.scan_exceeds (h : s.Logs rs tail) (hc : s.options.maxRecordsPerLoad<rs.length) :
    (scanJournal s.file s.options).outcome=.boundsExceeded := by
  have hl := h.length
  have hk : rs.length ≤ (rs.flatMap JournalRecord.bytes).length := length_le_flatMap
  obtain ⟨turns,ht⟩ : ∃ turns,s.file.length=rs.length+turns := ⟨s.file.length-rs.length,by omega⟩
  have hh : (validJournalHeader (s.file.take kJournalHeaderBytes)).isNone=false := by
    simpa using h.header
  rw [scanJournal,if_neg (Nat.not_lt.2 h.long),hh,h.body]
  dsimp only
  rw [if_neg Bool.false_ne_true,ht]
  exact scanRecords_exceeds h.width h.numbered h.sound (Nat.zero_le _) (by simpa using hc)

end PersistenceStore

/-- A scan of the records `rs` with a torn tail of `torn` bytes behind them. -/
structure JournalScan.Reads (scan : JournalScan) (rs : List JournalRecord) (torn : Nat) :
    Prop where
  records : scan.records=rs
  lastSequence : scan.lastSequence=(rs.getLast?.map JournalRecord.sequence).getD 0
  repairedBytes : scan.repairedBytes=torn
  outcome : scan.outcome=if 0<torn then .tornTailRepaired else if rs=[] then .empty else .ok

namespace PersistenceStore

variable {s : PersistenceStore} {rs : List JournalRecord} {tail : Bytes}

theorem Logs.reads (h : s.Logs rs tail) (hc : rs.length ≤ s.options.maxRecordsPerLoad)
    (ht : Torn s.options tail) : (scanJournal s.file s.options).Reads rs tail.length ∧
      (scanJournal s.file s.options).bytesRead=s.file.length := by
  obtain ⟨turns,cursor,hturns,hscan⟩ := h.scan hc
  rw [hscan]
  by_cases h0 : tail=[]
  · subst h0
    rw [scanRecords_nil]
    exact ⟨⟨rfl,h.numbered.last.symm,rfl,by simp⟩,rfl⟩
  · have hp : 0<tail.length := List.length_pos_iff.2 h0
    obtain ⟨turns,rfl⟩ : ∃ n,turns=n+1 := ⟨turns-1,by omega⟩
    obtain ⟨detail,hd⟩ := ht.scanRecords_eq h0
    rw [hd]
    exact ⟨⟨rfl,h.numbered.last.symm,rfl,by simp [hp,JournalScan.stop]⟩,rfl⟩

/-- `load` trusts the journal and gives back exactly `rs`. -/
def Returns (s : PersistenceStore) (rs : List JournalRecord) : Prop :=
  s.load.trustworthy=true ∧ s.load.records=rs

end PersistenceStore

/-- The ceilings leave room for a journal of `n` records. -/
def PersistenceOptions.Room (options : PersistenceOptions) (n : Nat) : Prop :=
  kJournalHeaderBytes ≤ options.maxJournalBytes ∧ n ≤ options.maxRecordsPerLoad

instance (options : PersistenceOptions) (n : Nat) : Decidable (options.Room n) := by
  unfold PersistenceOptions.Room; infer_instance

namespace PersistenceStore

variable {s s' : PersistenceStore} {rs : List JournalRecord} {tail payload : Bytes} {kind : RecordKind}
  {epoch at_ sequence : UInt64} {e : Status}

theorem Logs.load_eq (h : s.Logs rs tail) (hj : kJournalHeaderBytes ≤ s.options.maxJournalBytes) :
    s.load={ outcome := (scanJournal s.file s.options).outcome
             lastSequence := (scanJournal s.file s.options).lastSequence
             repairedBytes := (scanJournal s.file s.options).repairedBytes
             bytesRead := (scanJournal s.file s.options).bytesRead
             records := (scanJournal s.file s.options).records
             detail := (scanJournal s.file s.options).detail
             runtimeEpoch := ((validJournalHeader (s.file.take kJournalHeaderBytes)).getD (0,0)).1
             createdAtNanos :=
              ((validJournalHeader (s.file.take kJournalHeaderBytes)).getD (0,0)).2 } := by
  have hw := h.within
  rw [load,if_neg (by omega)]

/-- A trusted load needs both ceilings. -/
theorem Logs.room (h : s.Logs rs tail) (ht : s.load.trustworthy=true) :
    s.options.Room rs.length := by
  have hl := h.long
  by_cases hj : s.options.maxJournalBytes<s.file.length
  · rw [load,if_pos hj] at ht
    cases ht
  · refine ⟨by omega,?_⟩
    by_contra hc
    have ho := h.scan_exceeds (Nat.not_le.1 hc)
    rw [h.load_eq (by omega),DurableState.trustworthy,ho] at ht
    cases ht

/-- The records come back exactly when the ceilings have room for them and nothing but a torn
tail stands behind them. -/
theorem Logs.returns_iff (h : s.Logs rs tail) :
    s.Returns rs ↔ s.options.Room rs.length ∧ Torn s.options tail := by
  constructor
  · rintro ⟨ht,hr⟩
    have hroom := h.room ht
    refine ⟨hroom,?_⟩
    obtain ⟨turns,cursor,hturns,hscan⟩ := h.scan hroom.2
    rw [h.load_eq hroom.1,hscan] at ht hr
    exact torn_of_scanRecords hturns (by simpa [DurableState.trustworthy] using ht) hr
  · rintro ⟨hroom,ht⟩
    obtain ⟨hreads,_⟩ := h.reads hroom.2 ht
    rw [Returns,h.load_eq hroom.1,DurableState.trustworthy]
    refine ⟨?_,hreads.records⟩
    rw [hreads.outcome]
    split_ifs <;> rfl

/-- A write at the end of the records keeps them and covers the front of what stood behind. -/
theorem Logs.overwrite (h : s.Logs rs tail) (data : Bytes) :
    overwrite s.file (kJournalHeaderBytes+(rs.flatMap JournalRecord.bytes).length) data=
      s.file.take kJournalHeaderBytes++
        (rs.flatMap JournalRecord.bytes++(data++tail.drop data.length)) := by
  have hl : (s.file.take kJournalHeaderBytes).length=kJournalHeaderBytes := by
    rw [List.length_take,Nat.min_eq_left h.long]
  have hb : CompilerFabric.overwrite (rs.flatMap JournalRecord.bytes++tail)
      ((rs.flatMap JournalRecord.bytes).length+0) data=
        rs.flatMap JournalRecord.bytes++(data++tail.drop data.length) := by
    rw [overwrite_append]
    simp [CompilerFabric.overwrite]
  calc CompilerFabric.overwrite s.file
        (kJournalHeaderBytes+(rs.flatMap JournalRecord.bytes).length) data
      = CompilerFabric.overwrite
          (s.file.take kJournalHeaderBytes++(rs.flatMap JournalRecord.bytes++tail))
          ((s.file.take kJournalHeaderBytes).length+((rs.flatMap JournalRecord.bytes).length+0))
          data := by
        rw [hl,← h.file_eq,Nat.add_zero]
    _ = _ := by rw [overwrite_append,hb]

theorem Logs.rewritten {tail' : Bytes} (h : s.Logs rs tail) (ho : s'.options=s.options)
    (hf : s'.file=s.file.take kJournalHeaderBytes++(rs.flatMap JournalRecord.bytes++tail'))
    (hw : s'.file.length ≤ max kJournalHeaderBytes s.options.maxJournalBytes) :
    s'.Logs rs tail' := by
  have hl : (s.file.take kJournalHeaderBytes).length=kJournalHeaderBytes := by
    rw [List.length_take,Nat.min_eq_left h.long]
  refine ⟨?_,?_,h.numbered,ho ▸ h.sound,ho ▸ h.width,ho ▸ hw⟩
  · rw [hf,List.take_append_of_le_length (by omega),List.take_take,Nat.min_self]
    exact h.header
  · rw [hf]
    nth_rewrite 1 [← hl]
    exact List.drop_left

theorem Logs.push {r : JournalRecord} (h : s.Logs rs (r.bytes++tail)) (hr : r.Sealed s.options)
    (hs : r.sequence=1+UInt64.ofNat rs.length) : s.Logs (rs++[r]) tail where
  header := h.header
  body := by rw [h.body]; simp
  numbered := numbered_append.2 ⟨h.numbered,hs,trivial⟩
  sound q hq := by
    rcases List.mem_append.1 hq with hq | hq
    · exact h.sound q hq
    · rw [List.mem_singleton.1 hq]; exact hr
  width := h.width
  within := h.within

/-- A write of any start of the next record. -/
theorem Holds.written {r : JournalRecord} {n : Nat} (h : s.Holds rs tail)
    (ho : s'.options=s.options) (hj : s.Fits r.payload)
    (hf : s'.file=CompilerFabric.overwrite s.file s.bytes (r.bytes.take n)) :
    s'.Logs rs (r.bytes.take n++tail.drop (r.bytes.take n).length) := by
  have hfile := hf
  rw [h.ends,h.overwrite] at hf
  refine h.rewritten ho hf ?_
  have hw := h.within
  have hl := h.length
  have hn : (r.bytes.take n).length ≤ kRecordHeaderBytes+r.payload.length := by
    rw [List.length_take,r.bytes_length,kRecordHeaderBytes]
    omega
  have he := h.ends
  have hj := hj.2
  rw [hfile,overwrite_length (by omega)]
  omega

theorem Holds.append_ok (h : s.Holds rs tail) (ha : s.append kind payload at_=(.ok sequence,s')) :
    s'.Holds (rs++[s.appended kind payload at_])
      (tail.drop (s.appended kind payload at_).bytes.length) := by
  obtain ⟨hfits,_,hs⟩ := PersistenceStore.append_ok ha
  have hl : s'.Logs rs ((s.appended kind payload at_).bytes.take
      (s.appended kind payload at_).bytes.length++tail.drop ((s.appended kind payload at_).bytes.take
        (s.appended kind payload at_).bytes.length).length) :=
    h.written (by rw [hs]) hfits (by rw [hs,List.take_length])
  rw [List.take_length] at hl
  have hlast : s.lastSequence+1=1+UInt64.ofNat rs.length := by rw [h.last,UInt64.add_comm]
  refine ⟨hl.push ⟨rfl,by rw [hs]; exact hfits.1⟩ hlast,?_,?_⟩
  · rw [hs,List.flatMap_append,List.length_append,← Nat.add_assoc,← h.ends]
    simp
  · rw [hs,List.length_append,UInt64.ofNat_add,← h.last]
    rfl

/-- A failed `append` changes what stands behind the records and nothing else. -/
theorem Holds.append_error (h : s.Holds rs tail) (ha : s.append kind payload at_=(.error e,s')) :
    ∃ tail',s'.Holds rs tail' := by
  rcases PersistenceStore.append_error ha with rfl | ⟨hfits,n,hs⟩
  · exact ⟨tail,h⟩
  · have hl : s'.Logs rs _ := h.written (r := s.appended kind payload at_) (n := n)
      (by rw [hs]) hfits (by rw [hs])
    exact ⟨_,hl,by rw [hs]; exact h.ends,by rw [hs]; exact h.last⟩

/-- The header is rewritten in place. -/
theorem Holds.rewriteHeader (h : s.Holds rs tail) (ho : s'.options=s.options)
    (hb : s'.bytes=s.bytes) (hq : s'.lastSequence=s.lastSequence)
    (hf : s'.file=CompilerFabric.overwrite s.file 0 (journalHeaderBytes epoch at_)) :
    s'.Holds rs tail := by
  have hl := h.long
  have hs : s'.file.length=max s.file.length (0+kJournalHeaderBytes) := by
    rw [hf,overwrite_length (Nat.zero_le _),journalHeaderBytes_length]
  have hf' : s'.file=journalHeaderBytes epoch at_++s.file.drop kJournalHeaderBytes := by
    rw [hf]
    simp [CompilerFabric.overwrite]
  refine ⟨⟨?_,?_,h.numbered,ho ▸ h.sound,ho ▸ h.width,?_⟩,hb ▸ h.ends,hq ▸ h.last⟩
  · rw [hf',List.take_append_of_le_length (by simp),List.take_of_length_le (by simp),
      validJournalHeader_eq]
    rfl
  · rw [hf',← journalHeaderBytes_length epoch at_,List.drop_left,journalHeaderBytes_length,h.body]
  · have hw := h.within
    rw [ho]
    omega

theorem Holds.recordEpoch_ok (h : s.Holds rs tail) (ha : s.recordEpoch epoch at_=(.ok sequence,s')) :
    s'.Holds (rs++[s.appended .epochAdvanced (Base.leBytes 8 epoch.toNat) at_])
      (tail.drop (s.appended .epochAdvanced (Base.leBytes 8 epoch.toNat) at_).bytes.length) := by
  obtain ⟨s1,happ,hs⟩ := PersistenceStore.recordEpoch_ok ha
  exact (h.append_ok happ).rewriteHeader (by rw [hs]) (by rw [hs]) (by rw [hs]) (by rw [hs])

end PersistenceStore

/-- The option values that `open` accepts. -/
def PersistenceOptions.accepted (options : PersistenceOptions) : Bool :=
  !options.directory.isEmpty && !options.name.isEmpty &&
    !options.name.any (· ∈ PersistenceStore.kForbiddenNameBytes) &&
    decide (options.maxRecordBytes ≠ 0 ∧ options.maxRecordBytes ≤ kMaxBlobBytes)

namespace PersistenceStore

variable {options : PersistenceOptions} {file : Bytes} {disk : List DiskOutcome}

theorem openStore_refused (h : options.accepted=false) (file : Bytes) (disk : List DiskOutcome)
    (wall : UInt64) : ∃ e,
    openStore options file disk wall=(.error e,{ options,file,disk }) ∧ e.code=.invalidArgument := by
  unfold openStore
  by_cases h1 : options.directory.isEmpty=true
  · exact ⟨_,if_pos h1,rfl⟩
  by_cases h2 : options.name.isEmpty=true
  · exact ⟨_,by rw [if_neg h1,if_pos h2]; rfl,rfl⟩
  by_cases h3 : options.name.any (· ∈ kForbiddenNameBytes)=true
  · exact ⟨_,by rw [if_neg h1,if_neg h2,if_pos h3]; rfl,rfl⟩
  by_cases h4 : options.maxRecordBytes=0 ∨ kMaxBlobBytes<options.maxRecordBytes
  · exact ⟨_,by rw [if_neg h1,if_neg h2,if_neg h3,if_pos h4]; rfl,rfl⟩
  · rw [not_or,Nat.not_lt] at h4
    rw [PersistenceOptions.accepted,Bool.eq_false_of_not_eq_true h1,
      Bool.eq_false_of_not_eq_true h2,Bool.eq_false_of_not_eq_true h3,decide_eq_true h4] at h
    cases h

section Accepted

variable (h : options.accepted=true)
include h

theorem openStore_empty (wall : UInt64) : openStore options [] disk wall=
    match ({ options,disk } : PersistenceStore).writeAt 0 (journalHeaderBytes 0 wall) true with
    | (.error e,s) => (.error e,s)
    | (.ok (),s) => (.ok (),{ s with lastSequence := 0,bytes := kJournalHeaderBytes }) := by
  simp only [PersistenceOptions.accepted,Bool.and_eq_true,Bool.not_eq_true',
    decide_eq_true_eq] at h
  obtain ⟨⟨⟨h1,h2⟩,h3⟩,h4⟩ := h
  rw [openStore,if_neg (by simp [h1]),if_neg (by simp [h2]),if_neg (by rw [h3]; simp),
    if_neg (by omega)]
  rfl

theorem openStore_untrusted (hf : file ≠ [])
    (ht : ({ options,file,disk } : PersistenceStore).load.trustworthy=false) (wall : UInt64) :
    ∃ e,openStore options file disk wall=(.error e,{ options,file,disk }) := by
  simp only [PersistenceOptions.accepted,Bool.and_eq_true,Bool.not_eq_true',
    decide_eq_true_eq] at h
  obtain ⟨⟨⟨h1,h2⟩,h3⟩,h4⟩ := h
  rw [openStore,if_neg (by simp [h1]),if_neg (by simp [h2]),if_neg (by rw [h3]; simp),
    if_neg (by omega),if_neg (by simpa using hf)]
  dsimp only
  rw [ht]
  exact ⟨_,rfl⟩

theorem openStore_found (hf : file ≠ [])
    (ht : ({ options,file,disk } : PersistenceStore).load.trustworthy=true) (wall : UInt64) :
    ∃ s,openStore options file disk wall=(.ok (),s) ∧ s.options=options ∧
      s.file=(if ({ options,file,disk } : PersistenceStore).load.outcome=.tornTailRepaired then
        file.take s.bytes else file) ∧
      s.lastSequence=({ options,file,disk } : PersistenceStore).load.lastSequence ∧
      s.bytes=({ options,file,disk } : PersistenceStore).load.bytesRead-
        ({ options,file,disk } : PersistenceStore).load.repairedBytes ∧
      s.disk=disk := by
  simp only [PersistenceOptions.accepted,Bool.and_eq_true,Bool.not_eq_true',
    decide_eq_true_eq] at h
  obtain ⟨⟨⟨h1,h2⟩,h3⟩,h4⟩ := h
  rw [openStore,if_neg (by simp [h1]),if_neg (by simp [h2]),if_neg (by rw [h3]; simp),
    if_neg (by omega),if_neg (by simpa using hf)]
  dsimp only
  rw [ht]
  refine ⟨_,rfl,?_⟩
  split_ifs <;> exact ⟨rfl,rfl,rfl,rfl,rfl⟩

end Accepted

theorem accepted_of_openStore {s : PersistenceStore} {wall : UInt64}
    (h : openStore options file disk wall=(.ok (),s)) : options.accepted=true := by
  by_contra ha
  obtain ⟨e,he,_⟩ := openStore_refused (Bool.eq_false_of_not_eq_true ha) file disk wall
  rw [he] at h
  cases h

theorem width_of_accepted (h : options.accepted=true) : options.maxRecordBytes<2^32 := by
  simp only [PersistenceOptions.accepted,Bool.and_eq_true,decide_eq_true_eq] at h
  have hb : kMaxBlobBytes<2^32 := by decide
  omega

theorem logs_header (h : options.accepted=true) (epoch created : UInt64) {s : PersistenceStore}
    (ho : s.options=options) (hf : s.file=journalHeaderBytes epoch created) : s.Logs [] [] where
  header := by
    rw [hf,List.take_of_length_le (by simp),validJournalHeader_eq]
    rfl
  body := by rw [hf,List.drop_of_length_le (by simp)]; rfl
  numbered := trivial
  sound r hr := by cases hr
  width := ho ▸ width_of_accepted h
  within := by rw [hf,journalHeaderBytes_length]; exact Nat.le_max_left _ _

/-- `open` on no file makes an empty journal. -/
theorem openStore_new {s : PersistenceStore} {wall : UInt64}
    (h : openStore options [] disk wall=(.ok (),s)) :
    s.options=options ∧ s.Holds [] [] := by
  have ha := accepted_of_openStore h
  rw [openStore_empty ha] at h
  split at h
  · simp at h
  · next s1 hw =>
    simp only [Prod.mk.injEq,true_and] at h
    have hs := writeAt_ok hw
    rw [← h,hs]
    refine ⟨rfl,logs_header ha 0 wall rfl ?_,rfl,rfl⟩
    simp [CompilerFabric.overwrite]

/-- `open` on a journal with a torn tail keeps its records and drops the tail. -/
theorem Logs.opens {rs : List JournalRecord} {tail : Bytes} (ha : options.accepted=true)
    (h : ({ options,file,disk } : PersistenceStore).Logs rs tail) (ht : Torn options tail)
    (hroom : options.Room rs.length) (wall : UInt64) :
    ∃ s,openStore options file disk wall=(.ok (),s) ∧ s.options=options ∧ s.disk=disk ∧
      s.Holds rs [] := by
  have hne : file ≠ [] := h.ne_nil
  have hret := h.returns_iff.2 ⟨hroom,ht⟩
  obtain ⟨hreads,hread⟩ := h.reads hroom.2 ht
  have hlen : file.length=_ := h.length
  obtain ⟨s,hopen,hopts,hfile,hlast,hbytes,hdisk⟩ := openStore_found ha hne hret.1 wall
  rw [h.load_eq hroom.1] at hfile hlast hbytes
  dsimp only at hfile hlast hbytes
  rw [hreads.outcome] at hfile
  rw [hreads.lastSequence,h.numbered.last] at hlast
  rw [hread,hreads.repairedBytes] at hbytes
  dsimp only at hbytes
  have hends : s.bytes=kJournalHeaderBytes+(rs.flatMap JournalRecord.bytes).length := by omega
  refine ⟨s,hopen,hopts,hdisk,?_,hends,hlast⟩
  have hf : s.file=file.take kJournalHeaderBytes++(rs.flatMap JournalRecord.bytes++[]) := by
    have htake : file.take s.bytes=
        file.take kJournalHeaderBytes++rs.flatMap JournalRecord.bytes := by
      have hb : file.drop kJournalHeaderBytes=_ := h.body
      rw [hends,List.take_add,hb,List.take_left]
    rw [List.append_nil,← htake,hfile]
    by_cases h0 : 0<tail.length
    · rw [if_pos h0,if_pos rfl]
    · have hall : file.length ≤ s.bytes := by omega
      rw [List.take_of_length_le hall,ite_self]
  refine h.rewritten hopts hf ?_
  have hw : file.length ≤ _ := h.within
  have hs := congrArg List.length hf
  simp only [List.length_append,List.length_take,List.length_nil] at hs
  dsimp only at hw ⊢
  omega

theorem Logs.opened {s : PersistenceStore} {wall : UInt64} {rs : List JournalRecord} {tail : Bytes}
    (h : ({ options,file,disk } : PersistenceStore).Logs rs tail) (ht : Torn options tail)
    (ho : openStore options file disk wall=(.ok (),s)) :
    s.options=options ∧ s.Holds rs [] ∧ options.Room rs.length := by
  have ha := accepted_of_openStore ho
  have hne : file ≠ [] := h.ne_nil
  have htrust : ({ options,file,disk } : PersistenceStore).load.trustworthy=true := by
    by_contra hn
    obtain ⟨e,he⟩ := openStore_untrusted ha hne (Bool.eq_false_of_not_eq_true hn) wall
    rw [he] at ho
    cases ho
  have hroom := h.room htrust
  obtain ⟨s1,hopen,hopts,_,hs⟩ := h.opens ha ht hroom wall
  rw [hopen] at ho
  cases ho
  exact ⟨hopts,hs,hroom⟩

end PersistenceStore

end CompilerFabric
