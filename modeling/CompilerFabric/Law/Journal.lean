import CompilerFabric.Core.Store

namespace CompilerFabric

open PersistenceStore

/-- A file that `open` can start from: none at all, or one whose header is sound. -/
def Headed (file : Bytes) : Prop :=
  file=[] ∨ (validJournalHeader (file.take kJournalHeaderBytes)).isSome

/-- What a crash leaves of the journal: the file, and the records that are complete in it. The
write in progress reaches the disk up to any byte. -/
inductive Left : PersistenceStore → List JournalRecord → Bytes → List JournalRecord → Prop
  | idle (s : PersistenceStore) (rs : List JournalRecord) : Left s rs s.file rs
  | appending {s s' : PersistenceStore} (rs : List JournalRecord) {n : Nat} {kind : RecordKind}
      {payload : Bytes} {at_ : UInt64}
      (h : { s with disk := [.torn n] }.append kind payload at_=
        (refuse .persistenceIo "journal write failed",s')) :
      Left s rs s'.file (if (s.appended kind payload at_).bytes.length ≤ n
        then rs++[s.appended kind payload at_] else rs)
  | recording {s s' : PersistenceStore} (rs : List JournalRecord) {n : Nat} {epoch at_ : UInt64}
      (h : { s with disk := [.done,.torn n] }.recordEpoch epoch at_=
        (refuse .persistenceIo "journal write failed",s')) :
      Left s rs s'.file (rs++[s.appended .epochAdvanced (Base.leBytes 8 epoch.toNat) at_])

/-- A store reached by `open`, `append` and `record_epoch`, with the records it acknowledged and
did not lose. A crash in between left a sound header. -/
inductive Journaled (options : PersistenceOptions) :
    PersistenceStore → List JournalRecord → Prop
  | opened {s : PersistenceStore} {disk : List DiskOutcome} {wall : UInt64}
      (h : openStore options [] disk wall=(.ok (),s)) : Journaled options s []
  | appended {s s' : PersistenceStore} {rs : List JournalRecord} {kind : RecordKind}
      {payload : Bytes} {at_ sequence : UInt64} (hs : Journaled options s rs)
      (h : s.append kind payload at_=(.ok sequence,s')) :
      Journaled options s' (rs++[⟨kind,sequence,at_,payload,crc32c payload⟩])
  | recorded {s s' : PersistenceStore} {rs : List JournalRecord} {epoch at_ sequence : UInt64}
      (hs : Journaled options s rs) (h : s.recordEpoch epoch at_=(.ok sequence,s')) :
      Journaled options s' (rs++[⟨.epochAdvanced,sequence,at_,Base.leBytes 8 epoch.toNat,
        crc32c (Base.leBytes 8 epoch.toNat)⟩])
  | reopened {s s' : PersistenceStore} {rs kept : List JournalRecord} {file : Bytes}
      {disk : List DiskOutcome} {wall : UInt64} (hs : Journaled options s rs)
      (hl : Left s rs file kept) (hh : Headed file)
      (h : openStore options file disk wall=(.ok (),s')) : Journaled options s' kept
  | created {s s' : PersistenceStore} {n : Nat} {disk : List DiskOutcome} {wall wall' : UInt64}
      (hc : openStore options [] [.torn n] wall=
        (refuse .persistenceIo "journal write failed",s)) (hh : Headed s.file)
      (h : openStore options s.file disk wall'=(.ok (),s')) : Journaled options s' []

section Journaled

variable {options : PersistenceOptions} {s s' : PersistenceStore} {rs kept : List JournalRecord}
  {file tail : Bytes} {disk : List DiskOutcome} {n k : Nat} {wall : UInt64}

theorem PersistenceStore.Logs.of_file (h : s.Logs rs tail) (ho : s'.options=s.options)
    (hf : s'.file=s.file) : s'.Logs rs tail where
  header := hf ▸ h.header
  body := hf ▸ h.body
  numbered := h.numbered
  sound := ho ▸ h.sound
  width := ho ▸ h.width
  within := by rw [hf,ho]; exact h.within

theorem torn_nil : Torn options [] := .inl (by decide)

/-- A creation cut short leaves a start of the header. -/
theorem created_file (h : openStore options [] [.torn n] wall=
    (refuse .persistenceIo "journal write failed",s)) :
    options.accepted=true ∧ s.file=(journalHeaderBytes 0 wall).take n := by
  by_cases ha : options.accepted=true
  · rw [openStore_empty ha] at h
    refine ⟨ha,?_⟩
    simp only [writeAt,List.headD_cons,refuse] at h
    simp only [Prod.mk.injEq,true_and] at h
    rw [← h]
    simp
  · obtain ⟨e,he,hc⟩ := openStore_refused (Bool.eq_false_of_not_eq_true ha) [] [.torn n] wall
    rw [he] at h
    simp only [refuse,Prod.mk.injEq,Except.error.injEq] at h
    rw [h.1] at hc
    cases hc

theorem headed_created (h : Headed ((journalHeaderBytes 0 wall).take n)) :
    n=0 ∨ kJournalHeaderBytes ≤ n := by
  have hl := journalHeaderBytes_length 0 wall
  rcases h with h | h
  · left
    have hz := congrArg List.length h
    rw [List.length_take,hl,List.length_nil,kJournalHeaderBytes] at hz
    omega
  · right
    by_contra hn
    rw [validJournalHeader,if_pos (by rw [List.length_take,List.length_take,hl]; omega)] at h
    cases h

variable {kind : RecordKind} {payload : Bytes} {epoch at_ : UInt64}

theorem PersistenceStore.Holds.withDisk (h : s.Holds rs tail) (disk : List DiskOutcome) :
    { s with disk }.Holds rs tail :=
  ⟨h.toLogs.of_file rfl rfl,h.ends,h.last⟩

theorem append_torn (h : { s with disk := [.torn n] }.append kind payload at_=
    (refuse .persistenceIo "journal write failed",s')) :
    s.Fits payload ∧ s'.options=s.options ∧
    s'.file=overwrite s.file s.bytes ((s.appended kind payload at_).bytes.take n) := by
  by_cases hf : s.Fits payload
  · have hf' : { s with disk := [.torn n] }.Fits payload := hf
    rw [append_eq hf'] at h
    simp only [writeAt,List.headD_cons,refuse,Prod.mk.injEq,true_and] at h
    rw [← h]
    refine ⟨hf,rfl,?_⟩
    simp [overwrite,appended]
  · have hf' : ¬{ s with disk := [.torn n] }.Fits payload := hf
    obtain ⟨e,he,hc⟩ := append_refused hf' kind at_
    rw [he] at h
    simp only [refuse,Prod.mk.injEq,Except.error.injEq] at h
    rw [h.1] at hc
    cases hc

theorem recordEpoch_torn (h : { s with disk := [.done,.torn n] }.recordEpoch epoch at_=
    (refuse .persistenceIo "journal write failed",s')) : ∃ sequence s1 created,
    { s with disk := [.done,.torn n] }.append .epochAdvanced (Base.leBytes 8 epoch.toNat) at_=
      (.ok sequence,s1) ∧ s'.options=s1.options ∧
    s'.file=overwrite s1.file 0 ((journalHeaderBytes epoch created).take n) := by
  unfold recordEpoch at h
  split at h
  · next e s1 ha =>
    simp only [refuse,Prod.mk.injEq,Except.error.injEq] at h
    by_cases hf : { s with disk := [.done,.torn n] }.Fits (Base.leBytes 8 epoch.toNat)
    · rw [append_eq hf] at ha
      simp [writeAt] at ha
    · obtain ⟨e',he,hc⟩ := append_refused hf .epochAdvanced at_
      rw [he] at ha
      simp only [Prod.mk.injEq,Except.error.injEq] at ha
      rw [ha.1,h.1] at hc
      cases hc
  · next sequence s1 ha =>
    obtain ⟨_,_,hs⟩ := PersistenceStore.append_ok ha
    have hd : s1.disk=[.torn n] := by rw [hs]; rfl
    simp only [writeAt,hd,List.headD_cons,refuse,Prod.mk.injEq,true_and] at h
    refine ⟨sequence,s1,s1.createdNanos,ha,?_,?_⟩
    · rw [← h]
    · rw [← h]
      simp [overwrite]

theorem Left.ne_nil (hl : Left s rs file kept) (h : s.Holds rs []) : file ≠ [] := by
  have hlong := h.long
  have h0 : 0<kJournalHeaderBytes := by decide
  have he := h.ends
  have hlen := h.length
  cases hl with
  | idle => exact h.ne_nil
  | appending _ ha =>
    obtain ⟨_,_,hf⟩ := append_torn ha
    intro hn
    have hz := congrArg List.length (hf.symm.trans hn)
    rw [overwrite_length (by omega),List.length_nil] at hz
    omega
  | recording _ hr =>
    obtain ⟨_,s1,_,ha,_,hf⟩ := recordEpoch_torn hr
    have h1 := ((h.withDisk _).append_ok ha).long
    intro hn
    have hz := congrArg List.length (hf.symm.trans hn)
    rw [overwrite_length (Nat.zero_le _),List.length_nil] at hz
    omega

/-- Where the header is sound, the records that a crash left complete are in the file, with
nothing but a torn tail behind them. -/
theorem Left.logs (hl : Left s rs file kept) (h : s.Holds rs [])
    (hh : (validJournalHeader (file.take kJournalHeaderBytes)).isSome) (disk : List DiskOutcome) :
    ∃ tail,({ options := s.options,file,disk } : PersistenceStore).Logs kept tail ∧
      Torn s.options tail := by
  cases hl with
  | idle => exact ⟨[],h.toLogs.of_file rfl rfl,torn_nil⟩
  | @appending s' _ n kind payload at_ ha =>
    obtain ⟨hfits,ho,hf⟩ := append_torn ha
    have hp := hfits.1
    have hlog : ({ options := s.options,file := s'.file,disk } : PersistenceStore).Logs rs
        ((s.appended kind payload at_).bytes.take n++[].drop _) := h.written rfl hfits hf
    rw [List.drop_nil,List.append_nil] at hlog
    have hw : payload.length<2^32 := by have := h.width; omega
    split_ifs with hn
    · rw [List.take_of_length_le hn] at hlog
      refine ⟨[],PersistenceStore.Logs.push (by rwa [List.append_nil]) ⟨rfl,hp⟩ ?_,torn_nil⟩
      rw [UInt64.add_comm,← h.last]
      rfl
    · exact ⟨_,hlog,JournalRecord.torn_take hp hw (Nat.not_le.1 hn)⟩
  | @recording s' _ n epoch at_ hr =>
    obtain ⟨sequence,s1,created,ha,ho,hf⟩ := recordEpoch_torn hr
    have h1 := (h.withDisk _).append_ok ha
    have h0 : s1.options=s.options := by
      obtain ⟨_,_,hs⟩ := PersistenceStore.append_ok ha
      rw [hs]
    have hlen : ((journalHeaderBytes epoch created).take n).length ≤ kJournalHeaderBytes := by
      rw [List.length_take,journalHeaderBytes_length]
      omega
    have hlong := h1.long
    refine ⟨[],⟨hh,?_,h1.numbered,h0 ▸ h1.sound,h0 ▸ h1.width,?_⟩,torn_nil⟩
    · have hb := h1.body
      rw [List.drop_nil] at hb
      refine Eq.trans ?_ hb
      show s'.file.drop _=_
      rw [hf,overwrite,List.take_zero,List.nil_append,Nat.zero_add,List.drop_append,
        List.drop_of_length_le hlen,List.nil_append,List.drop_drop,Nat.add_sub_cancel' hlen]
    · have hw := h1.within
      rw [h0] at hw
      show s'.file.length ≤ max kJournalHeaderBytes s.options.maxJournalBytes
      rw [hf,overwrite_length (Nat.zero_le _)]
      omega

theorem Journaled.holds (h : Journaled options s rs) :
    options.accepted=true ∧ s.options=options ∧ s.Holds rs [] := by
  induction h with
  | opened h => exact ⟨accepted_of_openStore h,openStore_new h⟩
  | appended _ h ih =>
    obtain ⟨ha,ho,ih⟩ := ih
    obtain ⟨_,rfl,hs⟩ := PersistenceStore.append_ok h
    exact ⟨ha,by rw [hs]; exact ho,by simpa [PersistenceStore.appended] using ih.append_ok h⟩
  | recorded _ h ih =>
    obtain ⟨ha,ho,ih⟩ := ih
    obtain ⟨s1,happ,hs⟩ := PersistenceStore.recordEpoch_ok h
    obtain ⟨_,rfl,hs1⟩ := PersistenceStore.append_ok happ
    exact ⟨ha,by rw [hs,hs1]; exact ho,by simpa [PersistenceStore.appended] using ih.recordEpoch_ok h⟩
  | @reopened s s' rs kept file disk wall hs hl hh h ih =>
    obtain ⟨ha,rfl,ih⟩ := ih
    obtain ⟨tail,hlog,ht⟩ := hl.logs ih (hh.resolve_left (hl.ne_nil ih)) disk
    obtain ⟨ho,h',_⟩ := hlog.opened ht h
    exact ⟨ha,ho,h'⟩
  | @created s s' n disk wall wall' hc hh h =>
    obtain ⟨ha,hf⟩ := created_file hc
    rw [hf] at hh h
    rcases headed_created hh with rfl | hn
    · exact ⟨ha,openStore_new (by simpa using h)⟩
    · rw [List.take_of_length_le (by rw [journalHeaderBytes_length]; exact hn)] at h
      obtain ⟨ho,h',_⟩ := (logs_header ha 0 wall rfl rfl).opened torn_nil h
      exact ⟨ha,ho,h'⟩

/-- A journal cut behind its header holds its whole records and a torn tail. -/
theorem PersistenceStore.Logs.cut (h : s.Logs rs []) (hk : kJournalHeaderBytes ≤ k) : ∃ tail,
    { s with file := s.file.take k }.Logs
      (Base.whole JournalRecord.bytes (k-kJournalHeaderBytes) rs) tail ∧ Torn s.options tail := by
  obtain ⟨cut,hcut,hc⟩ := Base.take_flatMap_eq JournalRecord.bytes (k-kJournalHeaderBytes) rs
  have hp : Base.whole JournalRecord.bytes (k-kJournalHeaderBytes) rs<+:rs := Base.whole_isPrefix
  have hb := h.body
  rw [List.append_nil] at hb
  refine ⟨cut,⟨?_,?_,h.numbered.isPrefix hp,fun r hr => h.sound r (hp.subset hr),h.width,?_⟩,?_⟩
  · rw [List.take_take,Nat.min_eq_left hk]
    exact h.header
  · rw [List.drop_take,hb]
    exact hcut
  · have hw := h.within
    rw [List.length_take]
    exact Nat.le_trans (Nat.min_le_right _ _) hw
  · rcases hc with rfl | ⟨r,hr,n,_,hn,rfl⟩
    · exact torn_nil
    · obtain ⟨_,hm⟩ := h.sound r hr
      have hw := h.width
      exact JournalRecord.torn_take hm (by omega) hn

/-- A journal cut anywhere behind its header still gives every record that is complete in it. -/
theorem journal_prefix (h : Journaled options s rs) (hc : rs.length ≤ options.maxRecordsPerLoad)
    (hk : kJournalHeaderBytes ≤ k) (hl : k ≤ s.file.length) :
    (scanJournal (s.file.take k) options).Reads
      (Base.whole JournalRecord.bytes (k-kJournalHeaderBytes) rs)
      (k-kJournalHeaderBytes-((Base.whole JournalRecord.bytes (k-kJournalHeaderBytes) rs).flatMap
        JournalRecord.bytes).length) := by
  obtain ⟨_,rfl,hs⟩ := h.holds
  obtain ⟨tail,hcut,ht⟩ := hs.toLogs.cut hk
  have hp : Base.whole JournalRecord.bytes (k-kJournalHeaderBytes) rs<+:rs := Base.whole_isPrefix
  have hreads := (hcut.reads (Nat.le_trans hp.length_le hc) ht).1
  have hlen := hcut.length
  rw [List.length_take,Nat.min_eq_left hl] at hlen
  convert hreads using 1
  omega

/-- What was appended is loaded, and the store reopens, exactly when the ceilings that only
`load` checks have room for it. -/
theorem load_appended_iff (h : Journaled options s rs) :
    (s.Returns rs ∧ ∀ wall,∃ s',openStore options s.file [] wall=(.ok (),s') ∧ s'.Returns rs) ↔
      options.Room rs.length := by
  obtain ⟨ha,rfl,hs⟩ := h.holds
  constructor
  · rintro ⟨hr,_⟩
    exact (hs.returns_iff.1 hr).1
  · intro hroom
    refine ⟨hs.returns_iff.2 ⟨hroom,torn_nil⟩,fun wall => ?_⟩
    have hl : ({ options := s.options,file := s.file,disk := [] } : PersistenceStore).Logs rs [] :=
      hs.toLogs.of_file rfl rfl
    obtain ⟨s',hopen,ho,_,hs'⟩ := hl.opens ha torn_nil hroom wall
    exact ⟨s',hopen,hs'.returns_iff.2 ⟨ho ▸ hroom,torn_nil⟩⟩

/-- Appends that succeed and appends that fail, after any write or at the flush; `rs` are the
records of those that succeeded. -/
inductive Attempted (options : PersistenceOptions) :
    PersistenceStore → List JournalRecord → Prop
  | start {s : PersistenceStore} {rs : List JournalRecord} (h : Journaled options s rs) :
      Attempted options s rs
  | appended {s s' : PersistenceStore} {rs : List JournalRecord} {kind : RecordKind}
      {payload : Bytes} {at_ sequence : UInt64} (hs : Attempted options s rs)
      (h : s.append kind payload at_=(.ok sequence,s')) :
      Attempted options s' (rs++[⟨kind,sequence,at_,payload,crc32c payload⟩])
  | failed {s s' : PersistenceStore} {rs : List JournalRecord} {kind : RecordKind}
      {payload : Bytes} {at_ : UInt64} {e : Status} (hs : Attempted options s rs)
      (h : s.append kind payload at_=(.error e,s')) : Attempted options s' rs

theorem Attempted.holds (h : Attempted options s rs) :
    s.options=options ∧ ∃ tail,s.Holds rs tail := by
  induction h with
  | start h => exact ⟨h.holds.2.1,_,h.holds.2.2⟩
  | appended _ h ih =>
    obtain ⟨ho,tail,ih⟩ := ih
    obtain ⟨_,rfl,hs⟩ := PersistenceStore.append_ok h
    exact ⟨by rw [hs]; exact ho,_,ih.append_ok h⟩
  | failed _ h ih =>
    obtain ⟨ho,tail,ih⟩ := ih
    refine ⟨?_,ih.append_error h⟩
    rcases PersistenceStore.append_error h with rfl | ⟨_,n,hs⟩
    · exact ho
    · rw [hs]; exact ho

/-- Failed appends stay out of every later load exactly as long as what they left behind the
last record reads as a torn tail. -/
theorem load_attempted_iff (h : Attempted options s rs) :
    s.Returns rs ↔ options.Room rs.length ∧ Torn options (s.file.drop s.bytes) := by
  obtain ⟨rfl,tail,hs⟩ := h.holds
  have ht : s.file.drop s.bytes=tail := by
    rw [hs.ends,← List.drop_drop,hs.body,List.drop_left]
  rw [ht]
  exact hs.returns_iff

end Journaled

namespace Sample

def journalOptions : PersistenceOptions := { directory := ascii "state",name := ascii "fabric" }

section

variable (options : PersistenceOptions) (disk : List DiskOutcome)

def fresh : PersistenceStore := (openStore options [] disk 7).2

def longAppend : Result UInt64 × PersistenceStore :=
  (fresh options disk).append .provenanceAppended (List.replicate 44 5) 8

def shortAppend : Result UInt64 × PersistenceStore :=
  (longAppend options disk).2.append .diagnosticsRecorded [1,2,3] 9

end

def longRecord : JournalRecord :=
  ⟨.provenanceAppended,1,8,List.replicate 44 5,crc32c (List.replicate 44 5)⟩

def shortRecord (sequence : UInt64) : JournalRecord :=
  ⟨.diagnosticsRecorded,sequence,9,[1,2,3],crc32c [1,2,3]⟩

/-- Two appends on a fresh journal, under any ceilings they meet. -/
theorem journaled_two {options : PersistenceOptions}
    (h : (openStore options [] [] 7).1=.ok () ∧ (longAppend options []).1=.ok 1 ∧
      (shortAppend options []).1=.ok 2) :
    Journaled options (shortAppend options []).2 [longRecord,shortRecord 2] := by
  obtain ⟨h0,h1,h2⟩ := h
  have j0 : Journaled options (fresh options []) [] := .opened (Prod.ext h0 rfl)
  have j1 : Journaled options (longAppend options []).2 ([]++[longRecord]) :=
    .appended j0 (Prod.ext h1 rfl)
  exact .appended j1 (Prod.ext h2 rfl)

end Sample

open Sample

theorem journaled_sample :
    Journaled journalOptions (shortAppend journalOptions []).2 [longRecord,shortRecord 2] :=
  journaled_two (by decide +kernel)

/-- Cut in its second record, the journal of two gives the first. -/
theorem journal_prefix_cut : (scanJournal ((shortAppend journalOptions []).2.file.take 150)
    journalOptions).Reads [longRecord] 18 := by
  have h := journal_prefix (k := 150) journaled_sample (by decide) (by decide) (by decide +kernel)
  have hw : Base.whole JournalRecord.bytes (150-kJournalHeaderBytes) [longRecord,shortRecord 2]=
      [longRecord] ∧ ([longRecord].flatMap JournalRecord.bytes).length=84 := by decide +kernel
  rw [hw.1,hw.2] at h
  exact h

theorem load_appended_beyond_ceiling :
    Journaled { journalOptions with maxRecordsPerLoad := 1 }
      (shortAppend { journalOptions with maxRecordsPerLoad := 1 } []).2
      [longRecord,shortRecord 2] ∧
    ¬(shortAppend { journalOptions with maxRecordsPerLoad := 1 } []).2.Returns
      [longRecord,shortRecord 2] := by
  refine ⟨journaled_two (by decide +kernel),?_⟩
  rintro ⟨ht,_⟩
  revert ht
  decide +kernel

theorem load_appended_two :
    (shortAppend journalOptions []).2.Returns [longRecord,shortRecord 2] :=
  ((load_appended_iff journaled_sample).2 (by decide)).1

/-- A failed append and one over what it left. -/
theorem attempted_two {disk : List DiskOutcome} {e : Status}
    (h : (openStore journalOptions [] disk 7).1=.ok () ∧
      (longAppend journalOptions disk).1=.error e ∧ (shortAppend journalOptions disk).1=.ok 1) :
    Attempted journalOptions (shortAppend journalOptions disk).2 [shortRecord 1] := by
  obtain ⟨h0,h1,h2⟩ := h
  have a0 : Attempted journalOptions (fresh journalOptions disk) [] :=
    .start (.opened (Prod.ext h0 rfl))
  have a1 : Attempted journalOptions (longAppend journalOptions disk).2 [] :=
    .failed a0 (Prod.ext h1 rfl)
  exact .appended a1 (Prod.ext h2 rfl)

/-- The record that failed at its flush is longer than the one written over it: what is left of
it fails the scan. -/
theorem load_attempted_flush_failure :
    Attempted journalOptions (shortAppend journalOptions [.done,.unflushed]).2 [shortRecord 1] ∧
    ¬(shortAppend journalOptions [.done,.unflushed]).2.Returns [shortRecord 1] := by
  refine ⟨attempted_two (e := ⟨.persistenceIo,ascii "journal flush failed"⟩) (by decide +kernel),?_⟩
  rintro ⟨ht,_⟩
  revert ht
  decide +kernel

theorem load_attempted_torn :
    (shortAppend journalOptions [.done,.torn 50]).2.Returns [shortRecord 1] :=
  (load_attempted_iff (attempted_two (e := ⟨.persistenceIo,ascii "journal write failed"⟩)
    (by decide +kernel))).2 ⟨by decide,by decide +kernel⟩

end CompilerFabric
