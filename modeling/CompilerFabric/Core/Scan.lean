import CompilerFabric.Base.Frames
import CompilerFabric.Core.Journal
import Mathlib.Data.List.Induction

namespace CompilerFabric

theorem getWord_head {w n : Nat} (r : Bytes) (h : n<256^w) :
    getWord w 0 (Base.leBytes w n++r)=n := by
  have ht : (Base.leBytes w n++r).take w=Base.leBytes w n := by
    rw [List.take_append_of_le_length (by simp),List.take_of_length_le (by simp)]
  rw [getWord,List.drop_zero,ht,Base.leValue_leBytes w n h]

theorem getWord_skip {w o k n : Nat} (r : Bytes) (h : k ≤ o) :
    getWord w o (Base.leBytes k n++r)=getWord w (o-k) r := by
  have hd : (Base.leBytes k n++r).drop o=r.drop (o-k) := by
    rw [List.drop_append,List.drop_of_length_le (by simpa),List.nil_append,Base.leBytes_length]
  rw [getWord,getWord,hd]

theorem getWord_of_take {w o k : Nat} (b : Bytes) (h : o+w ≤ k) :
    getWord w o (b.take k)=getWord w o b := by
  rw [getWord,getWord,List.drop_take,List.take_take,Nat.min_eq_left (by omega)]

namespace JournalRecord

def checked (r : JournalRecord) : Bytes :=
  Base.leBytes 4 kRecordMagic++(Base.leBytes 2 kPersistenceSchemaVersion.toNat++
    (Base.leBytes 2 r.kind.raw.toNat++(Base.leBytes 8 r.sequence.toNat++
      (Base.leBytes 8 r.atNanos.toNat++(Base.leBytes 4 r.payload.length++
        Base.leBytes 4 (crc32c r.payload).toNat)))))

def head (r : JournalRecord) : Bytes :=
  r.checked++(Base.leBytes 4 (crc32c r.checked).toNat++Base.leBytes 4 0)

/-- The bytes `append` writes for the record. -/
def bytes (r : JournalRecord) : Bytes := recordBytes r.kind r.sequence r.atNanos r.payload

theorem bytes_eq (r : JournalRecord) : r.bytes=r.head++r.payload := by
  simp [bytes,recordBytes,head,checked]

@[simp] theorem checked_length (r : JournalRecord) : r.checked.length=32 := by simp [checked]

@[simp] theorem head_length (r : JournalRecord) : r.head.length=40 := by simp [head]

theorem bytes_length (r : JournalRecord) : r.bytes.length=40+r.payload.length := by
  simp [bytes_eq]

/-- What the scan reads of a record header. -/
structure Heads (r : JournalRecord) (b : Bytes) : Prop where
  magic : getWord 4 0 b=kRecordMagic
  schema : getWord 2 4 b=kPersistenceSchemaVersion.toNat
  kind : getWord 2 6 b=r.kind.raw.toNat
  sequence : getWord 8 8 b=r.sequence.toNat
  atNanos : getWord 8 16 b=r.atNanos.toNat
  length : getWord 4 24 b=r.payload.length
  payloadCrc : getWord 4 28 b=(crc32c r.payload).toNat
  headerCrc : getWord 4 32 b=(crc32c (b.take 32)).toNat

theorem heads_append (r : JournalRecord) (rest : Bytes) (h : r.payload.length<2^32) :
    r.Heads (r.head++rest) := by
  have hw : r.head++rest=Base.leBytes 4 kRecordMagic++
      (Base.leBytes 2 kPersistenceSchemaVersion.toNat++(Base.leBytes 2 r.kind.raw.toNat++
        (Base.leBytes 8 r.sequence.toNat++(Base.leBytes 8 r.atNanos.toNat++
          (Base.leBytes 4 r.payload.length++(Base.leBytes 4 (crc32c r.payload).toNat++
            ((Base.leBytes 4 (crc32c r.checked).toNat++Base.leBytes 4 0)++rest))))))) := by
    simp only [head,checked,List.append_assoc]
  have ht : (r.head++rest).take 32=r.checked := by
    rw [head,List.append_assoc,List.take_append_of_le_length (by simp),
      List.take_of_length_le (by simp)]
  have hk : r.kind.raw.toNat<256^2 := r.kind.raw.toNat_lt
  have hs : r.sequence.toNat<256^8 := r.sequence.toNat_lt
  have ha : r.atNanos.toNat<256^8 := r.atNanos.toNat_lt
  have hl : r.payload.length<256^4 := h
  have hp : (crc32c r.payload).toNat<256^4 := UInt32.toNat_lt _
  have hc : (crc32c r.checked).toNat<256^4 := UInt32.toNat_lt _
  constructor
  · rw [hw,getWord_head _ (by decide)]
  · rw [hw,getWord_skip _ (by decide),getWord_head _ (by decide)]
  · rw [hw]
    repeat rw [getWord_skip _ (by decide)]
    exact getWord_head _ hk
  · rw [hw]
    repeat rw [getWord_skip _ (by decide)]
    exact getWord_head _ hs
  · rw [hw]
    repeat rw [getWord_skip _ (by decide)]
    exact getWord_head _ ha
  · rw [hw]
    repeat rw [getWord_skip _ (by decide)]
    exact getWord_head _ hl
  · rw [hw]
    repeat rw [getWord_skip _ (by decide)]
    exact getWord_head _ hp
  · rw [ht,hw]
    repeat rw [getWord_skip _ (by decide)]
    rw [List.append_assoc]
    exact getWord_head _ hc

/-- Only the forty bytes of the header are read. -/
theorem Heads.take {r : JournalRecord} {b : Bytes} {k : Nat} (h : r.Heads b) (hk : 40 ≤ k) :
    r.Heads (b.take k) where
  magic := (getWord_of_take b (by omega)).trans h.magic
  schema := (getWord_of_take b (by omega)).trans h.schema
  kind := (getWord_of_take b (by omega)).trans h.kind
  sequence := (getWord_of_take b (by omega)).trans h.sequence
  atNanos := (getWord_of_take b (by omega)).trans h.atNanos
  length := (getWord_of_take b (by omega)).trans h.length
  payloadCrc := (getWord_of_take b (by omega)).trans h.payloadCrc
  headerCrc := by
    rw [getWord_of_take b (by omega),h.headerCrc,List.take_take,Nat.min_eq_left (by omega)]

end JournalRecord

namespace RecordKind

theorem parse_raw (kind : RecordKind) : parse kind.raw=some kind := by cases kind <;> rfl

end RecordKind

section Scan

variable {options : PersistenceOptions} {turns cursor : Nat} {expected : UInt64} {bytes : Bytes}
  {scan : JournalScan} {r : JournalRecord}

theorem scanRecords_nil : scanRecords options turns cursor expected [] scan=
    { scan with validBytes := cursor,outcome := if scan.records.isEmpty then .empty else .ok } := by
  cases turns <;> rfl

/-- Bytes that the scan gives up as a torn tail: too few for a record header, or a sound header
whose payload is not all there. -/
def Torn (options : PersistenceOptions) (bytes : Bytes) : Prop :=
  bytes.length<kRecordHeaderBytes ∨
    (getWord 4 0 bytes=kRecordMagic ∧ getWord 2 4 bytes=kPersistenceSchemaVersion.toNat ∧
      getWord 4 32 bytes=(crc32c (bytes.take 32)).toNat ∧
      getWord 4 24 bytes ≤ options.maxRecordBytes ∧
      bytes.length-kRecordHeaderBytes<getWord 4 24 bytes)

instance : Decidable (Torn options bytes) := by unfold Torn; infer_instance

/-- Every proper start of a record is a torn tail. -/
theorem JournalRecord.torn_take {n : Nat} (hm : r.payload.length ≤ options.maxRecordBytes)
    (h32 : r.payload.length<2^32) (hn : n<r.bytes.length) : Torn options (r.bytes.take n) := by
  by_cases h : n<kRecordHeaderBytes
  · exact .inl (by rw [List.length_take]; omega)
  · have h40 : kRecordHeaderBytes=40 := rfl
    have hr : r.Heads (r.bytes.take n) := by
      rw [r.bytes_eq]
      exact (r.heads_append r.payload h32).take (by omega)
    refine .inr ⟨hr.magic,hr.schema,hr.headerCrc,hr.length.trans_le hm,?_⟩
    rw [hr.length,List.length_take]
    rw [r.bytes_length] at hn ⊢
    omega

/-- A torn tail costs the log its own bytes and nothing before them. -/
theorem Torn.scanRecords_eq (h : Torn options bytes) (h0 : bytes ≠ []) :
    ∃ detail,scanRecords options (turns+1) cursor expected bytes scan=
      { scan.stop .tornTailRepaired cursor detail with repairedBytes := bytes.length } := by
  cases bytes with
  | nil => exact absurd rfl h0
  | cons b bs =>
    by_cases hl : (b::bs).length<kRecordHeaderBytes
    · refine ⟨ascii "journal ends with a partial record header",?_⟩
      rw [scanRecords,if_pos hl]
      simp
    · obtain ⟨hm,hv,hc,hp,hs⟩ := h.resolve_left hl
      refine ⟨ascii "journal ends with a partially written record",?_⟩
      rw [scanRecords,if_neg hl,if_neg (not_not.2 hm),if_neg (not_not.2 hv),if_neg (not_not.2 hc),
        if_neg (Nat.not_lt.2 hp),if_pos hs]
      simp

theorem scanRecords_record {rest : Bytes} (hm : r.payload.length ≤ options.maxRecordBytes)
    (h32 : r.payload.length<2^32) (hc : r.storedCrc=crc32c r.payload) (hs : expected ≤ r.sequence) :
    scanRecords options (turns+1) cursor expected (r.bytes++rest) scan=
      if options.maxRecordsPerLoad<scan.records.length+1 then
        { scan with
          lastSequence := r.sequence
          records := scan.records++[r]
          outcome := .boundsExceeded
          detail := ascii "journal holds more records than the configured ceiling" }
      else scanRecords options turns (cursor+r.bytes.length) (r.sequence+1) rest
        { scan with lastSequence := r.sequence,records := scan.records++[r] } := by
  rw [r.bytes_eq,List.append_assoc]
  have hr := r.heads_append (r.payload++rest) h32
  generalize hb : r.head++(r.payload++rest)=bytes at hr
  have hlen : bytes.length=kRecordHeaderBytes+(r.payload.length+rest.length) := by
    simp [← hb,kRecordHeaderBytes]
  have hp : (bytes.drop kRecordHeaderBytes).take r.payload.length=r.payload := by
    rw [← hb,kRecordHeaderBytes,← r.head_length,List.drop_left,List.take_left]
  have hd : bytes.drop (kRecordHeaderBytes+r.payload.length)=rest := by
    rw [← List.drop_drop,← hb,kRecordHeaderBytes,← r.head_length,List.drop_left,List.drop_left]
  cases bytes with
  | nil => exact absurd hlen (by simp [kRecordHeaderBytes]; omega)
  | cons b bs =>
    rw [scanRecords,if_neg (by omega),
      if_neg (not_not.2 hr.magic),
      if_neg (not_not.2 hr.schema),if_neg (not_not.2 hr.headerCrc),hr.length,
      if_neg (Nat.not_lt.2 hm),if_neg (by omega),hp,hr.payloadCrc,
      if_neg (by simp),hr.kind,hr.sequence,hr.atNanos,hd]
    simp only [UInt16.ofNat_toNat,UInt64.ofNat_toNat,UInt32.ofNat_toNat,RecordKind.parse_raw]
    have he : (⟨r.kind,r.sequence,r.atNanos,r.payload,crc32c r.payload⟩ : JournalRecord)=r := by
      rw [← hc]
    rw [if_neg (by simpa using hs),he,List.length_append,List.length_append,r.head_length,
      Nat.add_assoc]
    · rfl
    · simp

/-- A scan that stops at damage has the records it had, and does not trust them. -/
theorem stop_distrusted {outcome : LoadOutcome} {detail : Bytes} {trusted : Prop}
    (h : outcome ∉ [LoadOutcome.ok,.empty,.tornTailRepaired]) :
    (scan.stop outcome cursor detail).records=scan.records ∧
      ((scan.stop outcome cursor detail).outcome ∈ [LoadOutcome.ok,.empty,.tornTailRepaired] →
        trusted) :=
  ⟨rfl,fun htrusted => absurd htrusted h⟩

/-- One turn on any bytes: the scan stops with the records that it has, which it trusts at a
torn tail only, or takes one more. -/
theorem scanRecords_turn (h0 : bytes ≠ []) :
    ((scanRecords options (turns+1) cursor expected bytes scan).records=scan.records ∧
      ((scanRecords options (turns+1) cursor expected bytes scan).outcome
        ∈ [LoadOutcome.ok,.empty,.tornTailRepaired] → Torn options bytes)) ∨
    ∃ r : JournalRecord,kRecordHeaderBytes+r.payload.length ≤ bytes.length ∧
      ((scanRecords options (turns+1) cursor expected bytes scan).records=scan.records++[r] ∨
        scanRecords options (turns+1) cursor expected bytes scan=
          scanRecords options turns (cursor+kRecordHeaderBytes+r.payload.length) (r.sequence+1)
            (bytes.drop (kRecordHeaderBytes+r.payload.length))
            { scan with lastSequence := r.sequence,records := scan.records++[r] }) := by
  cases bytes with
  | nil => exact absurd rfl h0
  | cons b bs =>
    rw [scanRecords]
    · dsimp only
      by_cases h1 : (b::bs).length<kRecordHeaderBytes
      · rw [if_pos h1]
        exact .inl ⟨rfl,fun _ => .inl h1⟩
      rw [if_neg h1]
      by_cases h2 : getWord 4 0 (b::bs)=kRecordMagic
      swap
      · rw [if_pos h2]
        exact .inl (stop_distrusted (by decide))
      rw [if_neg (not_not.2 h2)]
      by_cases h3 : getWord 2 4 (b::bs)=kPersistenceSchemaVersion.toNat
      swap
      · rw [if_pos h3]
        exact .inl (stop_distrusted (by decide))
      rw [if_neg (not_not.2 h3)]
      by_cases h4 : getWord 4 32 (b::bs)=(crc32c ((b::bs).take 32)).toNat
      swap
      · rw [if_pos h4]
        exact .inl (stop_distrusted (by decide))
      rw [if_neg (not_not.2 h4)]
      by_cases h5 : options.maxRecordBytes<getWord 4 24 (b::bs)
      · rw [if_pos h5]
        exact .inl (stop_distrusted (by decide))
      rw [if_neg h5]
      by_cases h6 : (b::bs).length-kRecordHeaderBytes<getWord 4 24 (b::bs)
      · rw [if_pos h6]
        exact .inl ⟨rfl,fun _ => .inr ⟨h2,h3,h4,Nat.not_lt.1 h5,h6⟩⟩
      rw [if_neg h6]
      have hp : (((b::bs).drop kRecordHeaderBytes).take (getWord 4 24 (b::bs))).length=
          getWord 4 24 (b::bs) := by
        rw [List.length_take,List.length_drop]
        omega
      by_cases h7 : getWord 4 28 (b::bs)=
          (crc32c (((b::bs).drop kRecordHeaderBytes).take (getWord 4 24 (b::bs)))).toNat
      swap
      · rw [if_pos h7]
        exact .inl (stop_distrusted (by decide))
      rw [if_neg (not_not.2 h7)]
      cases RecordKind.parse (UInt16.ofNat (getWord 2 6 (b::bs))) with
      | none => exact .inl (stop_distrusted (by decide))
      | some kind =>
        dsimp only
        by_cases h8 : UInt64.ofNat (getWord 8 8 (b::bs))<expected
        · rw [if_pos h8]
          exact .inl (stop_distrusted (by decide))
        rw [if_neg h8]
        refine .inr ⟨⟨kind,UInt64.ofNat (getWord 8 8 (b::bs)),UInt64.ofNat (getWord 8 16 (b::bs)),
          ((b::bs).drop kRecordHeaderBytes).take (getWord 4 24 (b::bs)),
          UInt32.ofNat (getWord 4 28 (b::bs))⟩,by simp only [hp]; omega,?_⟩
        split_ifs
        · exact .inl rfl
        · exact .inr (by simp only [hp])
    · simp

/-- The records a scan adds to those it has come out of the bytes that it is given. -/
theorem scanRecords_taken : ∃ taken,
    (scanRecords options turns cursor expected bytes scan).records=scan.records++taken ∧
      (taken.map fun r => kRecordHeaderBytes+r.payload.length).sum ≤ bytes.length := by
  induction turns generalizing cursor expected bytes scan with
  | zero => exact ⟨[],by simp [scanRecords],by simp⟩
  | succ turns ih =>
    by_cases h0 : bytes=[]
    · subst h0
      exact ⟨[],by simp [scanRecords_nil],by simp⟩
    · rcases scanRecords_turn h0 with ⟨hr,_⟩ | ⟨r,hl,hr | hr⟩
      · exact ⟨[],by rw [hr,List.append_nil],by simp⟩
      · exact ⟨[r],hr,by simpa using hl⟩
      · rw [hr]
        obtain ⟨taken,ht,hs⟩ := ih
        refine ⟨r::taken,by rw [ht,List.append_assoc]; rfl,?_⟩
        rw [List.length_drop] at hs
        rw [List.map_cons,List.sum_cons]
        omega

/-- A scan that adds nothing and is trusted stopped at the end or at a torn tail. -/
theorem torn_of_scanRecords (ht : bytes.length ≤ turns)
    (ho : (scanRecords options turns cursor expected bytes scan).outcome
      ∈ [LoadOutcome.ok,.empty,.tornTailRepaired])
    (hr : (scanRecords options turns cursor expected bytes scan).records=scan.records) :
    Torn options bytes := by
  by_cases h0 : bytes=[]
  · exact .inl (by simp [h0,kRecordHeaderBytes])
  · cases turns with
    | zero => exact absurd (List.length_eq_zero_iff.1 (Nat.le_zero.1 ht)) h0
    | succ turns =>
      rcases scanRecords_turn h0 with ⟨_,h⟩ | ⟨r,_,h | h⟩
      · exact h ho
      · rw [h] at hr
        exact absurd hr (by simp)
      · rw [h] at hr
        obtain ⟨taken,htaken,_⟩ := scanRecords_taken
        rw [htaken] at hr
        exact absurd hr (by simp)

end Scan

/-- Records numbered one after another from `n` on, as `append` numbers them. -/
def Numbered : UInt64 → List JournalRecord → Prop
  | _,[] => True
  | n,r::rs => r.sequence=n ∧ Numbered (n+1) rs

/-- What `append` checks and stores of a payload. -/
def JournalRecord.Sealed (options : PersistenceOptions) (r : JournalRecord) : Prop :=
  r.storedCrc=crc32c r.payload ∧ r.payload.length ≤ options.maxRecordBytes

section Log

variable {options : PersistenceOptions} {turns cursor k : Nat} {expected n : UInt64}
  {file tail : Bytes} {scan : JournalScan} {r : JournalRecord} {rs : List JournalRecord}

theorem numbered_append {ps : List JournalRecord} : Numbered n (rs++ps) ↔
    Numbered n rs ∧ Numbered (n+UInt64.ofNat rs.length) ps := by
  induction rs generalizing n with
  | nil => simp [Numbered]
  | cons r rs ih =>
    have h : n+1+UInt64.ofNat rs.length=n+UInt64.ofNat (rs.length+1) := by
      rw [UInt64.ofNat_add,UInt64.add_assoc,UInt64.add_comm 1]
      rfl
    rw [List.cons_append,Numbered,Numbered,ih,List.length_cons,h,and_assoc]

theorem Numbered.isPrefix {ps : List JournalRecord} (h : Numbered n rs) (hp : ps<+:rs) :
    Numbered n ps := by
  obtain ⟨qs,rfl⟩ := hp
  exact (numbered_append.1 h).1

/-- The sequence of the last record of a journal. -/
theorem Numbered.last (h : Numbered 1 rs) :
    (rs.getLast?.map JournalRecord.sequence).getD 0=UInt64.ofNat rs.length := by
  induction rs using List.reverseRecOn with
  | nil => rfl
  | append_singleton rs r _ =>
    have hr := (numbered_append.1 h).2.1
    rw [List.getLast?_append]
    simp [hr,UInt64.add_comm]

/-- Records written one after another are read back one after another. -/
theorem scanRecords_append (h32 : options.maxRecordBytes<2^32) (hn : Numbered n rs)
    (hs : ∀ r ∈ rs,r.Sealed options)
    (hc : scan.records.length+rs.length ≤ options.maxRecordsPerLoad) :
    scanRecords options (rs.length+turns) cursor n (rs.flatMap JournalRecord.bytes++tail) scan=
      scanRecords options turns (cursor+(rs.flatMap JournalRecord.bytes).length)
        (n+UInt64.ofNat rs.length) tail
        { scan with
          lastSequence := (rs.getLast?.map JournalRecord.sequence).getD scan.lastSequence
          records := scan.records++rs } := by
  induction rs generalizing cursor n scan with
  | nil => simp
  | cons r rs ih =>
    obtain ⟨hr,hn⟩ := hn
    obtain ⟨hcrc,hm⟩ := hs r List.mem_cons_self
    rw [List.length_cons] at hc
    have hseq : n+1+UInt64.ofNat rs.length=n+UInt64.ofNat (rs.length+1) := by
      rw [UInt64.ofNat_add,UInt64.add_assoc,UInt64.add_comm 1]
      rfl
    rw [List.flatMap_cons,List.append_assoc,List.length_cons,Nat.add_right_comm,
      scanRecords_record hm (by omega) hcrc (hr ▸ UInt64.le_refl _),if_neg (by omega),hr,
      ih hn (fun q hq => hs q (List.mem_cons_of_mem r hq)) (by simp; omega),List.length_append,
      hseq,Nat.add_assoc]
    congr 1
    cases h : rs.getLast? <;> simp [List.getLast?_cons,h,hr]

/-- One record more than the ceiling and the scan refuses the journal. -/
theorem scanRecords_exceeds (h32 : options.maxRecordBytes<2^32) (hn : Numbered n rs)
    (hs : ∀ r ∈ rs,r.Sealed options) (h0 : scan.records.length ≤ options.maxRecordsPerLoad)
    (hc : options.maxRecordsPerLoad<scan.records.length+rs.length) :
    (scanRecords options (rs.length+turns) cursor n
      (rs.flatMap JournalRecord.bytes++tail) scan).outcome=.boundsExceeded := by
  induction rs generalizing cursor n scan with
  | nil => exact absurd hc (by simpa using h0)
  | cons r rs ih =>
    obtain ⟨hr,hn⟩ := hn
    obtain ⟨hcrc,hm⟩ := hs r List.mem_cons_self
    rw [List.length_cons] at hc
    rw [List.flatMap_cons,List.append_assoc,List.length_cons,Nat.add_right_comm,
      scanRecords_record hm (by omega) hcrc (hr ▸ UInt64.le_refl _)]
    split_ifs with h
    · rfl
    · rw [hr]
      exact ih hn (fun q hq => hs q (List.mem_cons_of_mem r hq)) (by simp; omega) (by simp; omega)

@[simp] theorem journalHeaderBytes_length (epoch created : UInt64) :
    (journalHeaderBytes epoch created).length=kJournalHeaderBytes := by
  have h : kJournalMagic.length=8 := rfl
  simp [journalHeaderBytes,kJournalHeaderBytes,h]

theorem kJournalMagic_eq : kJournalMagic=Base.leBytes 8 0x314C4E524A465243 := by decide

theorem validJournalHeader_eq (epoch created : UInt64) :
    validJournalHeader (journalHeaderBytes epoch created)=some (epoch,created) := by
  have he : epoch.toNat<256^8 := epoch.toNat_lt
  have ha : created.toNat<256^8 := created.toNat_lt
  have hv : kPersistenceSchemaVersion.toNat<256^2 := by decide
  obtain ⟨checked,hchecked⟩ : ∃ checked,checked=kJournalMagic++
      Base.leBytes 2 kPersistenceSchemaVersion.toNat++Base.leBytes 2 0++Base.leBytes 4 0++
      Base.leBytes 8 epoch.toNat++Base.leBytes 8 created.toNat := ⟨_,rfl⟩
  have hlen : checked.length=32 := by simp [hchecked,kJournalMagic_eq]
  have hc : (crc32c checked).toNat<256^4 := UInt32.toNat_lt _
  have hb : journalHeaderBytes epoch created=
      checked++(Base.leBytes 4 (crc32c checked).toNat++Base.leBytes 12 0) := by
    rw [hchecked]
    simp only [journalHeaderBytes,List.append_assoc]
  have ht : (journalHeaderBytes epoch created).take 32=checked := by
    rw [hb,← hlen,List.take_left]
  have hw : journalHeaderBytes epoch created=Base.leBytes 8 0x314C4E524A465243++
      (Base.leBytes 2 kPersistenceSchemaVersion.toNat++(Base.leBytes 2 0++(Base.leBytes 4 0++
        (Base.leBytes 8 epoch.toNat++(Base.leBytes 8 created.toNat++
          (Base.leBytes 4 (crc32c checked).toNat++Base.leBytes 12 0)))))) := by
    rw [hb]
    nth_rewrite 1 [hchecked]
    simp only [kJournalMagic_eq,List.append_assoc]
  have h8 : (journalHeaderBytes epoch created).take 8=kJournalMagic := by
    rw [hw,kJournalMagic_eq,List.take_append_of_le_length (by simp),
      List.take_of_length_le (by simp)]
  have hschema : getWord 2 8 (journalHeaderBytes epoch created)=kPersistenceSchemaVersion.toNat := by
    rw [hw]
    repeat rw [getWord_skip _ (by decide)]
    exact getWord_head _ hv
  have hcrc : getWord 4 32 (journalHeaderBytes epoch created)=
      (crc32c ((journalHeaderBytes epoch created).take 32)).toNat := by
    rw [ht,hw]
    repeat rw [getWord_skip _ (by decide)]
    exact getWord_head _ hc
  have hepoch : getWord 8 16 (journalHeaderBytes epoch created)=epoch.toNat := by
    rw [hw]
    repeat rw [getWord_skip _ (by decide)]
    exact getWord_head _ he
  have hcreated : getWord 8 24 (journalHeaderBytes epoch created)=created.toNat := by
    rw [hw]
    repeat rw [getWord_skip _ (by decide)]
    exact getWord_head _ ha
  rw [validJournalHeader,if_neg (by simp),if_neg (not_not.2 h8),if_neg (not_not.2 hschema),
    if_neg (not_not.2 hcrc),hepoch,hcreated]
  simp

end Log

end CompilerFabric
