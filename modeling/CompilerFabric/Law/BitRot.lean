import CompilerFabric.Core.Checksum
import CompilerFabric.Law.Journal

namespace CompilerFabric

section Scan

variable {options : PersistenceOptions} {turns cursor i : Nat} {expected : UInt64} {bytes bytes' : Bytes}
  {scan : JournalScan} {value : UInt8}

/-- A record header that fails its checksum ends the scan. -/
theorem scanRecords_unsealed (hl : kRecordHeaderBytes ≤ bytes.length)
    (h : getWord 4 32 bytes ≠ (crc32c (bytes.take 32)).toNat) :
    (scanRecords options (turns+1) cursor expected bytes scan).outcome
      ∈ [LoadOutcome.corrupt,.schemaMismatch] := by
  cases bytes with
  | nil => exact absurd hl (by decide)
  | cons b bs =>
    rw [scanRecords,if_neg (Nat.not_lt.2 hl)]
    · split_ifs
      · simp [JournalScan.stop]
      · simp [JournalScan.stop]
      · simp [JournalScan.stop]
    · simp

/-- So does a record whose payload fails its own. -/
theorem scanRecords_spoiled (hl : kRecordHeaderBytes+getWord 4 24 bytes ≤ bytes.length)
    (hm : getWord 4 24 bytes ≤ options.maxRecordBytes)
    (h : getWord 4 28 bytes ≠
      (crc32c ((bytes.drop kRecordHeaderBytes).take (getWord 4 24 bytes))).toNat) :
    (scanRecords options (turns+1) cursor expected bytes scan).outcome
      ∈ [LoadOutcome.corrupt,.schemaMismatch] := by
  cases bytes with
  | nil => exact absurd hl (by decide)
  | cons b bs =>
    rw [scanRecords,if_neg (by omega)]
    · split_ifs
      · simp [JournalScan.stop]
      · simp [JournalScan.stop]
      · simp [JournalScan.stop]
      · omega
      · omega
      · simp [JournalScan.stop]
    · simp

/-- A record over the ceiling is not trusted. -/
theorem scanRecords_large (hl : kRecordHeaderBytes ≤ bytes.length)
    (hm : options.maxRecordBytes<getWord 4 24 bytes) :
    (scanRecords options (turns+1) cursor expected bytes scan).outcome
      ∉ [LoadOutcome.ok,.empty,.tornTailRepaired] := by
  cases bytes with
  | nil => exact absurd hl (by decide)
  | cons b bs =>
    rw [scanRecords,if_neg (by omega)]
    · split_ifs
      · simp [JournalScan.stop]
      · simp [JournalScan.stop]
      · simp [JournalScan.stop]
      · simp [JournalScan.stop]
    · simp

/-- No record is taken where there are too few bytes for it. -/
theorem scanRecords_fragment (h : bytes.length<kRecordHeaderBytes+getWord 4 24 bytes) :
    (scanRecords options (turns+1) cursor expected bytes scan).records=scan.records := by
  cases bytes with
  | nil => rw [scanRecords]
  | cons b bs =>
    rw [scanRecords]
    · dsimp only
      by_cases hl : (b::bs).length<kRecordHeaderBytes
      · rw [if_pos hl]
        rfl
      · rw [if_neg hl]
        -- The checks in front of the one for a partial record take no record either.
        iterate 4
          split
          · rfl
        rw [if_pos (by omega)]
        rfl
    · simp

/-- Two scans that have ended alike or go on alike, each with a rest of its own. -/
def Alike (options : PersistenceOptions) (turns : Nat) (rest' rest : Bytes) (x y : JournalScan) : Prop :=
  x=y ∨ ∃ cursor expected scan,x=scanRecords options turns cursor expected rest' scan ∧
    y=scanRecords options turns cursor expected rest scan

theorem Alike.ite {rest' rest : Bytes} {x y x' y' : JournalScan} {p : Prop} [Decidable p]
    (h : Alike options turns rest' rest x y) (h' : Alike options turns rest' rest x' y') :
    Alike options turns rest' rest (if p then x else x') (if p then y else y') := by
  by_cases hp : p
  · rwa [if_pos hp,if_pos hp]
  · rwa [if_neg hp,if_neg hp]

/-- Two logs that agree on the words of the next record and on its payload are scanned alike up to
the end of it. -/
theorem scanRecords_alike (hl : bytes'.length=bytes.length)
    (hw : ∀ w o,o+w ≤ 36 → getWord w o bytes'=getWord w o bytes) (ht : bytes'.take 32=bytes.take 32)
    (hp : (bytes'.drop kRecordHeaderBytes).take (getWord 4 24 bytes)=
      (bytes.drop kRecordHeaderBytes).take (getWord 4 24 bytes)) :
    Alike options turns (bytes'.drop (kRecordHeaderBytes+getWord 4 24 bytes))
      (bytes.drop (kRecordHeaderBytes+getWord 4 24 bytes))
      (scanRecords options (turns+1) cursor expected bytes' scan)
      (scanRecords options (turns+1) cursor expected bytes scan) := by
  cases bytes with
  | nil =>
    cases bytes' with
    | nil => exact .inl rfl
    | cons b bs => cases hl
  | cons c cs =>
    cases bytes' with
    | nil => cases hl
    | cons b bs =>
      rw [scanRecords,scanRecords]
      · dsimp only
        rw [hw 4 24 (by omega),hw 4 0 (by omega),hw 2 4 (by omega),hw 4 32 (by omega),hw 4 28 (by omega),
          hw 2 6 (by omega),hw 8 8 (by omega),hw 8 16 (by omega),ht,hp,hl]
        iterate 7 apply Alike.ite (.inl rfl)
        cases RecordKind.parse (UInt16.ofNat (getWord 2 6 (c::cs))) with
        | none => exact .inl rfl
        | some kind =>
          apply Alike.ite (.inl rfl)
          apply Alike.ite (.inl rfl)
          exact .inr ⟨_,_,_,rfl,rfl⟩
      · simp
      · simp

theorem untrusted_of_corrupt {outcome : LoadOutcome} (h : outcome ∈ [LoadOutcome.corrupt,.schemaMismatch]) :
    outcome ∉ [LoadOutcome.ok,.empty,.tornTailRepaired] := by
  revert h
  cases outcome <;> decide

/-- A change of one byte behind the header of a record, in its payload. -/
theorem scanRecords_set_payload (hl : kRecordHeaderBytes+getWord 4 24 bytes ≤ bytes.length)
    (hi : kRecordHeaderBytes ≤ i) (hlt : i<kRecordHeaderBytes+getWord 4 24 bytes)
    (ho : (scanRecords options (turns+1) cursor expected bytes scan).outcome
      ∉ [LoadOutcome.corrupt,.schemaMismatch]) (hne : bytes.set i value ≠ bytes) :
    (scanRecords options (turns+1) cursor expected (bytes.set i value) scan).outcome
      ∉ [LoadOutcome.ok,.empty,.tornTailRepaired] := by
  have h40 : kRecordHeaderBytes=40 := rfl
  have hlen : getWord 4 24 (bytes.set i value)=getWord 4 24 bytes := getWord_set (.inr (by omega))
  have hcrc : getWord 4 28 (bytes.set i value)=getWord 4 28 bytes := getWord_set (.inr (by omega))
  by_cases hm : options.maxRecordBytes<getWord 4 24 bytes
  · exact scanRecords_large (by rw [List.length_set]; omega) (by rwa [hlen])
  · apply untrusted_of_corrupt
    apply scanRecords_spoiled (by rw [List.length_set]; omega) (by omega)
    -- The payload was sound, or the log would have been refused already.
    have hsound : getWord 4 28 bytes=
        (crc32c ((bytes.drop kRecordHeaderBytes).take (getWord 4 24 bytes))).toNat := by
      by_contra hbad
      exact ho (scanRecords_spoiled hl (by omega) hbad)
    rw [hcrc,hlen,hsound,piece_set_inside hi]
    intro heq
    exact hne (set_eq_self_of_piece hi hlt (crc32c_set (UInt32.toNat.inj heq).symm))

/-- A change of one byte ends the scan untrusted or changes no record. -/
theorem scanRecords_set (ho : (scanRecords options turns cursor expected bytes scan).outcome
      ∉ [LoadOutcome.corrupt,.schemaMismatch]) :
    (scanRecords options turns cursor expected (bytes.set i value) scan).outcome
      ∉ [LoadOutcome.ok,.empty,.tornTailRepaired] ∨
    (scanRecords options turns cursor expected (bytes.set i value) scan).records=
      (scanRecords options turns cursor expected bytes scan).records := by
  induction turns generalizing cursor expected bytes scan i with
  | zero => exact .inr rfl
  | succ turns ih =>
    have h40 : kRecordHeaderBytes=40 := rfl
    by_cases hne : bytes.set i value=bytes
    · exact .inr (by rw [hne])
    by_cases hshort : bytes.length<kRecordHeaderBytes
    · refine .inr ?_
      rw [scanRecords_fragment (by rw [List.length_set]; omega),scanRecords_fragment (by omega)]
    by_cases hi : i<36
    · -- The checksum of the header stood, and does not any more.
      refine .inl (untrusted_of_corrupt (scanRecords_unsealed (by rw [List.length_set]; omega) ?_))
      intro hsealed
      by_cases hbefore : getWord 4 32 bytes=(crc32c (bytes.take 32)).toNat
      · exact hne (set_eq_self_of_checksum hi hbefore hsealed)
      · exact ho (scanRecords_unsealed (by omega) hbefore)
    have hlen : getWord 4 24 (bytes.set i value)=getWord 4 24 bytes := getWord_set (.inr (by omega))
    by_cases hpart : bytes.length<kRecordHeaderBytes+getWord 4 24 bytes
    · refine .inr ?_
      rw [scanRecords_fragment (by rw [List.length_set,hlen]; exact hpart),scanRecords_fragment hpart]
    by_cases hpay : kRecordHeaderBytes ≤ i ∧ i<kRecordHeaderBytes+getWord 4 24 bytes
    · exact .inl (scanRecords_set_payload (by omega) hpay.1 hpay.2 ho hne)
    have hwords : ∀ w o,o+w ≤ 36 → getWord w o (bytes.set i value)=getWord w o bytes :=
      fun w o hwo => getWord_set (.inr (by omega))
    have htake : (bytes.set i value).take 32=bytes.take 32 := by
      simpa using piece_set (o := 0) (w := 32) (.inr (by omega))
    have hpiece : ((bytes.set i value).drop kRecordHeaderBytes).take (getWord 4 24 bytes)=
        (bytes.drop kRecordHeaderBytes).take (getWord 4 24 bytes) := piece_set (by omega)
    rcases scanRecords_alike (List.length_set) hwords htake hpiece with heq | ⟨c,e,sc,hset,horig⟩
    · exact .inr (by rw [heq])
    · rw [horig] at ho
      rw [hset,horig,List.drop_set]
      split_ifs
      · exact .inr rfl
      · exact ih ho

end Scan

section Header

variable {header : Bytes} {i : Nat} {value : UInt8}

/-- The reserved bytes of the journal header are not looked at. -/
theorem validJournalHeader_set (hi : 36 ≤ i) :
    validJournalHeader (header.set i value)=validJournalHeader header := by
  have hw : ∀ w o,o+w ≤ 36 → getWord w o (header.set i value)=getWord w o header :=
    fun w o hwo => getWord_set (.inr (by omega))
  have ht : ∀ n,n ≤ 36 → (header.set i value).take n=header.take n := by
    intro n hn
    simpa using piece_set (o := 0) (w := n) (.inr (by omega))
  rw [validJournalHeader,validJournalHeader,List.length_set,hw 2 8 (by omega),hw 4 32 (by omega),
    hw 8 16 (by omega),hw 8 24 (by omega),ht 8 (by omega),ht 32 (by omega)]

theorem validJournalHeader_checksum (h : (validJournalHeader header).isSome) :
    getWord 4 32 header=(crc32c (header.take 32)).toNat := by
  by_contra hbad
  unfold validJournalHeader at h
  rw [if_pos hbad] at h
  split_ifs at h <;> cases h

/-- A change of one of the others invalidates it. -/
theorem validJournalHeader_set_lt (hi : i<36) (h : (validJournalHeader header).isSome)
    (hne : header.set i value ≠ header) : (validJournalHeader (header.set i value)).isNone=true := by
  by_contra hsome
  rw [Bool.not_eq_true,Option.isNone_eq_false_iff] at hsome
  exact hne (set_eq_self_of_checksum hi (validJournalHeader_checksum h)
    (validJournalHeader_checksum hsome))

theorem validJournalHeader_short (h : header.length<kJournalHeaderBytes) : validJournalHeader header=none := by
  rw [validJournalHeader,if_pos h]

/-- The scan of a journal with one byte changed. -/
theorem scanJournal_set {file : Bytes} {options : PersistenceOptions}
    (ho : (scanJournal file options).outcome ∉ [LoadOutcome.corrupt,.schemaMismatch]) :
    (scanJournal (file.set i value) options).outcome ∉ [LoadOutcome.ok,.empty,.tornTailRepaired] ∨
    ((scanJournal (file.set i value) options).records=(scanJournal file options).records ∧
      validJournalHeader ((file.set i value).take kJournalHeaderBytes)=
        validJournalHeader (file.take kJournalHeaderBytes)) := by
  have h48 : kJournalHeaderBytes=48 := rfl
  by_cases hne : file.set i value=file
  · exact .inr (by rw [hne]; exact ⟨rfl,rfl⟩)
  by_cases hl : file.length<kJournalHeaderBytes
  · refine .inr ⟨?_,?_⟩
    · rw [scanJournal,scanJournal,List.length_set,if_pos hl,if_pos hl]
    · rw [validJournalHeader_short (by simp; omega),validJournalHeader_short (by simp; omega)]
  have hvalid : (validJournalHeader (file.take kJournalHeaderBytes)).isSome := by
    by_contra hnone
    rw [Bool.not_eq_true,Option.isSome_eq_false_iff] at hnone
    rw [scanJournal,if_neg hl,if_pos hnone] at ho
    exact ho (by simp)
  by_cases hi : i<36
  · refine .inl ?_
    have hhead : (file.take kJournalHeaderBytes).set i value ≠ file.take kJournalHeaderBytes := by
      intro heq
      apply hne
      apply set_eq_self_of_piece (o := 0) (w := kJournalHeaderBytes) (Nat.zero_le i) (by omega)
      simpa using heq
    have hnone := validJournalHeader_set_lt hi hvalid hhead
    rw [scanJournal,List.length_set,if_neg hl,List.take_set,if_pos hnone]
    simp
  · have hsame : validJournalHeader ((file.set i value).take kJournalHeaderBytes)=
        validJournalHeader (file.take kJournalHeaderBytes) := by
      rw [List.take_set,validJournalHeader_set (by omega)]
    have hnone : ¬(validJournalHeader (file.take kJournalHeaderBytes)).isNone=true := by
      simpa [Option.isSome_iff_ne_none] using hvalid
    rw [scanJournal,if_neg hl,if_neg hnone] at ho
    rw [hsame]
    simp only [scanJournal,List.length_set,if_neg hl,hsame,if_neg hnone,List.drop_set]
    split_ifs
    · exact .inr ⟨rfl,trivial⟩
    · exact (scanRecords_set ho).imp_right fun hr => ⟨hr,trivial⟩

end Header

namespace PersistenceStore

/-- The journal with one byte changed. -/
def rot (s : PersistenceStore) (i : Nat) (value : UInt8) : PersistenceStore :=
  { s with file := s.file.set i value }

/-- The change of one byte is detected, or it changes nothing that `load` returns. -/
def Detects (s : PersistenceStore) (i : Nat) (value : UInt8) : Prop :=
  (s.rot i value).load.trustworthy=false ∨
    ((s.rot i value).load.records=s.load.records ∧
      (s.rot i value).load.runtimeEpoch=s.load.runtimeEpoch)

theorem detects (s : PersistenceStore) (i : Nat) (value : UInt8)
    (h : s.load.outcome ∉ [LoadOutcome.corrupt,.schemaMismatch]) : s.Detects i value := by
  by_cases hj : s.options.maxJournalBytes<s.file.length
  · refine .inl ?_
    have hj' : s.options.maxJournalBytes<(s.file.set i value).length := by rwa [List.length_set]
    rw [load,rot,if_pos hj']
    rfl
  · have hj' : ¬s.options.maxJournalBytes<(s.file.set i value).length := by rwa [List.length_set]
    rw [load,if_neg hj] at h
    rcases scanJournal_set (i := i) h with hout | ⟨hrecords,hheader⟩
    · refine .inl ?_
      rw [load,rot,if_neg hj']
      simpa [DurableState.trustworthy] using hout
    · refine .inr ?_
      rw [load,load,rot,if_neg hj',if_neg hj]
      exact ⟨hrecords,by rw [hheader]⟩

/-- Records with at most a torn tail behind them are not corrupt, however many they are. -/
theorem Logs.outcome {s : PersistenceStore} {rs : List JournalRecord} {tail : Bytes}
    (h : s.Logs rs tail) (ht : Torn s.options tail) :
    s.load.outcome ∉ [LoadOutcome.corrupt,.schemaMismatch] := by
  by_cases hj : s.options.maxJournalBytes<s.file.length
  · rw [load,if_pos hj]
    simp
  · have hl := h.long
    by_cases hc : rs.length ≤ s.options.maxRecordsPerLoad
    · have htrust := (h.returns_iff.2 ⟨⟨by omega,hc⟩,ht⟩).1
      revert htrust
      unfold DurableState.trustworthy
      cases s.load.outcome <;> decide
    · rw [h.load_eq (by omega)]
      dsimp only
      rw [h.scan_exceeds (by omega)]
      simp

end PersistenceStore

/-- Whichever byte of a journal is changed, `load` no longer trusts it or gives the same records and
epoch: for every journal that it did not find corrupt, or of another schema, already, and so for every
journal that a store has written. -/
theorem rot_detected :
    (∀ (s : PersistenceStore) (i : Nat) (value : UInt8),
      s.load.outcome ∉ [LoadOutcome.corrupt,.schemaMismatch] → s.Detects i value) ∧
    (∀ (options : PersistenceOptions) (s : PersistenceStore) (rs : List JournalRecord),
      Journaled options s rs → ∀ i value,s.Detects i value) := by
  refine ⟨PersistenceStore.detects,fun options s rs h i value => ?_⟩
  exact s.detects i value (h.holds.2.2.outcome torn_nil)

open Sample

/-- A byte in the second record of a journal of two, and one in the reserved part of its header. -/
theorem rot_detected_two :
    (shortAppend journalOptions []).2.Detects 160 0 ∧ (shortAppend journalOptions []).2.Detects 40 1 :=
  ⟨rot_detected.2 _ _ _ journaled_sample 160 0,
    rot_detected.1 _ 40 1 (journaled_sample.holds.2.2.outcome torn_nil)⟩

/-- A journal whose header was rewritten in part is corrupt, and the change of one byte of it gives
the old header again: `load` then trusts it and returns the record in it. -/
theorem rot_repairs_header :
    ((fresh journalOptions [.done,.done,.torn 17]).recordEpoch 1 8).2.load.outcome=.corrupt ∧
    ¬((fresh journalOptions [.done,.done,.torn 17]).recordEpoch 1 8).2.Detects 16 0 := by
  have h : ((fresh journalOptions [.done,.done,.torn 17]).recordEpoch 1 8).2.load.outcome=.corrupt ∧
      (((fresh journalOptions [.done,.done,.torn 17]).recordEpoch 1 8).2.rot 16 0).load.trustworthy=true ∧
      (((fresh journalOptions [.done,.done,.torn 17]).recordEpoch 1 8).2.rot 16 0).load.records ≠
        ((fresh journalOptions [.done,.done,.torn 17]).recordEpoch 1 8).2.load.records := by
    decide +kernel
  refine ⟨h.1,?_⟩
  rintro (ht | ⟨hr,_⟩)
  · rw [h.2.1] at ht
    cases ht
  · exact h.2.2 hr

end CompilerFabric
