import CompilerFabric.Law.Journal

namespace CompilerFabric

open PersistenceStore

/-- The journal files that a crash can leave, with the records complete in them. -/
inductive Crashed (options : PersistenceOptions) : Bytes → List JournalRecord → Prop
  | creating {s : PersistenceStore} {n : Nat} {wall : UInt64}
      (h : openStore options [] [.torn n] wall=
        (refuse .persistenceIo "journal write failed",s)) : Crashed options s.file []
  | running {s : PersistenceStore} {rs kept : List JournalRecord} {file : Bytes}
      (hs : Journaled options s rs) (h : Left s rs file kept) : Crashed options file kept

/-- The arguments of an append: kind, payload and wall clock. -/
abbrev Entry := RecordKind × Bytes × UInt64

def appendAll (s : PersistenceStore) : List Entry → Result Unit × PersistenceStore
  | [] => (.ok (),s)
  | (kind,payload,at_)::es =>
      match s.append kind payload at_ with
      | (.error e,s) => (.error e,s)
      | (.ok _,s) => appendAll s es

def numberFrom : UInt64 → List Entry → List JournalRecord
  | _,[] => []
  | n,(kind,payload,at_)::es => ⟨kind,n,at_,payload,crc32c payload⟩::numberFrom (n+1) es

def size (es : List Entry) : Nat := (es.map fun e => kRecordHeaderBytes+e.2.1.length).sum

def epochEntry (epoch at_ : UInt64) : Entry :=
  (.epochAdvanced,Base.leBytes 8 epoch.toNat,at_)

/-- After the crash: `open`, `record_epoch` and the appends `es` succeed, and `load` gives the
surviving records and the new ones. -/
def Continues (options : PersistenceOptions) (file : Bytes) (kept : List JournalRecord)
    (wall epoch at_ : UInt64) (es : List Entry) : Prop :=
  ∃ s0 sequence s1 s2,openStore options file [] wall=(.ok (),s0) ∧
    s0.recordEpoch epoch at_=(.ok sequence,s1) ∧ appendAll s1 es=(.ok (),s2) ∧
    s2.Returns (kept++numberFrom (UInt64.ofNat kept.length+1) (epochEntry epoch at_::es))

/-- The ceilings have room for the entries behind the records that survived. -/
def PersistenceOptions.Takes (options : PersistenceOptions) (kept : List JournalRecord)
    (es : List Entry) : Prop :=
  (∀ e ∈ es,e.2.1.length ≤ options.maxRecordBytes) ∧
  kJournalHeaderBytes+(kept.flatMap JournalRecord.bytes).length+size es ≤ options.maxJournalBytes ∧
  kept.length+es.length ≤ options.maxRecordsPerLoad

section Crash

variable {options : PersistenceOptions} {s s' : PersistenceStore} {rs kept : List JournalRecord}
  {file tail : Bytes} {es : List Entry} {kind : RecordKind} {payload : Bytes}
  {wall epoch at_ sequence n : UInt64}

theorem numberFrom_length : (numberFrom n es).length=es.length := by
  induction es generalizing n with
  | nil => rfl
  | cons e es ih => simp [numberFrom,ih]

theorem numberFrom_size :
    ((numberFrom n es).map fun r => kRecordHeaderBytes+r.payload.length).sum=size es := by
  induction es generalizing n with
  | nil => rfl
  | cons e es ih => simpa [numberFrom,size] using ih

/-- Appends that all succeed put their records behind those that were there. -/
theorem PersistenceStore.Holds.appendAll_ok (h : s.Holds rs []) (ha : appendAll s es=(.ok (),s')) :
    s'.options=s.options ∧ s'.Holds (rs++numberFrom (UInt64.ofNat rs.length+1) es) [] ∧
    (∀ e ∈ es,e.2.1.length ≤ s.options.maxRecordBytes) ∧ s'.bytes=s.bytes+size es ∧
    (es ≠ [] → s'.bytes ≤ s.options.maxJournalBytes) := by
  induction es generalizing s rs with
  | nil =>
    simp only [appendAll,Prod.mk.injEq,true_and] at ha
    subst ha
    exact ⟨rfl,by simpa [numberFrom] using h,by simp,by simp [size],fun h => absurd rfl h⟩
  | cons e es ih =>
    obtain ⟨kind,payload,at_⟩ := e
    rw [appendAll] at ha
    split at ha
    · simp at ha
    · next q s1 h1 =>
      obtain ⟨hfits,rfl,hs⟩ := PersistenceStore.append_ok h1
      have hh := h.append_ok h1
      rw [List.drop_nil] at hh
      obtain ⟨ho,hs',hp,hb,hj⟩ := ih hh ha
      have ho1 : s1.options=s.options := by rw [hs]
      have hb1 : s1.bytes=s.bytes+(kRecordHeaderBytes+payload.length) := by
        rw [hs]
        simp [JournalRecord.bytes_length,appended,kRecordHeaderBytes]
      refine ⟨ho.trans ho1,?_,?_,?_,?_⟩
      · rw [numberFrom,← h.last]
        rw [List.length_append,UInt64.ofNat_add,← h.last,List.append_assoc] at hs'
        exact hs'
      · intro e he
        rcases List.mem_cons.1 he with rfl | he
        · exact hfits.1
        · exact ho1 ▸ hp e he
      · simp only [size,List.map_cons,List.sum_cons] at hb ⊢
        omega
      · intro _
        by_cases h0 : es=[]
        · subst h0
          have := hfits.2
          simp [size] at hb
          omega
        · exact ho1 ▸ hj h0

/-- Appends within the ceilings succeed on a disk that does. -/
theorem PersistenceStore.append_succeeds (h : s.Fits payload) (hd : s.disk=[]) (kind : RecordKind)
    (at_ : UInt64) : ∃ s',s.append kind payload at_=(.ok (s.lastSequence+1),s') ∧ s'.disk=[] := by
  rw [append_eq h]
  simp only [writeAt,hd,List.headD_nil]
  exact ⟨_,rfl,rfl⟩

theorem appendAll_succeeds (hd : s.disk=[])
    (hp : ∀ e ∈ es,e.2.1.length ≤ s.options.maxRecordBytes)
    (hj : s.bytes+size es ≤ s.options.maxJournalBytes) : ∃ s',appendAll s es=(.ok (),s') := by
  induction es generalizing s with
  | nil => exact ⟨s,rfl⟩
  | cons e es ih =>
    obtain ⟨kind,payload,at_⟩ := e
    simp only [size,List.map_cons,List.sum_cons] at hj
    have hfits : s.Fits payload := ⟨hp _ List.mem_cons_self,by omega⟩
    obtain ⟨s1,h1,hd1⟩ := append_succeeds hfits hd kind at_
    obtain ⟨_,_,hs⟩ := PersistenceStore.append_ok h1
    have ho1 : s1.options=s.options := by rw [hs]
    have hb1 : s1.bytes=s.bytes+(kRecordHeaderBytes+payload.length) := by
      rw [hs]
      simp [JournalRecord.bytes_length,appended,kRecordHeaderBytes]
    rw [appendAll,h1]
    refine ih hd1 (fun e he => ho1 ▸ hp e (List.mem_cons_of_mem _ he)) ?_
    rw [ho1,hb1,size]
    omega

/-- A file that a crash left with a sound header opens with the records complete in it. -/
theorem Crashed.opens (h : Crashed options file kept) (hh : Headed file)
    (hroom : options.Room kept.length) (wall : UInt64) :
    ∃ s,openStore options file [] wall=(.ok (),s) ∧ s.options=options ∧ s.disk=[] ∧
      s.Holds kept [] := by
  have empty (ha : options.accepted=true) : ∃ s,openStore options [] [] wall=(.ok (),s) ∧
      s.options=options ∧ s.disk=[] ∧ s.Holds [] [] := by
    have ho : ∃ s,openStore options [] [] wall=(.ok (),s) ∧ s.disk=[] := by
      rw [openStore_empty ha]
      simp only [writeAt,List.headD_nil]
      exact ⟨_,rfl,rfl⟩
    obtain ⟨s,ho,hd⟩ := ho
    exact ⟨s,ho,(openStore_new ho).1,hd,(openStore_new ho).2⟩
  cases h with
  | @creating s n wall' hc =>
    obtain ⟨ha,hf⟩ := created_file hc
    rw [hf] at hh ⊢
    rcases headed_created hh with rfl | hn
    · exact empty ha
    · rw [List.take_of_length_le (by rw [journalHeaderBytes_length]; exact hn)]
      exact (logs_header ha 0 wall' rfl rfl).opens ha torn_nil hroom wall
  | running hj hl =>
    obtain ⟨ha,rfl,hs⟩ := hj.holds
    obtain ⟨tail,hlog,ht⟩ := hl.logs hs (hh.resolve_left (hl.ne_nil hs)) []
    exact hlog.opens ha ht hroom wall

theorem Crashed.opened (h : Crashed options file kept) (hh : Headed file)
    (ho : openStore options file [] wall=(.ok (),s)) : s.options=options ∧ s.Holds kept [] := by
  cases h with
  | @creating s n wall' hc =>
    obtain ⟨ha,hf⟩ := created_file hc
    rw [hf] at hh ho
    rcases headed_created hh with rfl | hn
    · exact openStore_new ho
    · rw [List.take_of_length_le (by rw [journalHeaderBytes_length]; exact hn)] at ho
      obtain ⟨hopts,hs,_⟩ := (logs_header ha 0 wall' rfl rfl).opened torn_nil ho
      exact ⟨hopts,hs⟩
  | running hj hl =>
    obtain ⟨_,rfl,hs⟩ := hj.holds
    obtain ⟨tail,hlog,ht⟩ := hl.logs hs (hh.resolve_left (hl.ne_nil hs)) []
    obtain ⟨hopts,hs,_⟩ := hlog.opened ht ho
    exact ⟨hopts,hs⟩

/-- A journal that is trusted without a sound header is shorter than one. -/
theorem opened_unheaded (hh : ¬Headed file) (ho : openStore options file [] wall=(.ok (),s)) :
    s.file=file ∧ s.bytes=file.length ∧ file.length<kJournalHeaderBytes := by
  have ha := accepted_of_openStore ho
  have hne : file ≠ [] := fun h => hh (.inl h)
  have htrust : ({ options,file,disk := [] } : PersistenceStore).load.trustworthy=true := by
    by_contra hn
    obtain ⟨e,he⟩ := openStore_untrusted ha hne (Bool.eq_false_of_not_eq_true hn) wall
    rw [he] at ho
    cases ho
  obtain ⟨s1,ho1,_,hf,_,hb,_⟩ := openStore_found ha hne htrust wall
  rw [ho] at ho1
  cases ho1
  by_cases hj : options.maxJournalBytes<file.length
  · rw [load,if_pos hj] at htrust
    cases htrust
  · rw [load,if_neg hj] at htrust hf hb
    by_cases hl : file.length<kJournalHeaderBytes
    · rw [scanJournal,if_pos hl] at hf hb
      exact ⟨hf,hb,hl⟩
    · have hn : (validJournalHeader (file.take kJournalHeaderBytes)).isNone=true := by
        rw [← Option.not_isSome,Bool.not_eq_true']
        exact Bool.eq_false_of_not_eq_true fun h => hh (.inr h)
      rw [scanJournal,if_neg hl,if_pos hn] at htrust
      cases htrust

/-- The bytes of what `load` returns are in the file behind the header. -/
theorem load_records_size (h : s.load.records ≠ []) :
    kJournalHeaderBytes+
      (s.load.records.map fun r => kRecordHeaderBytes+r.payload.length).sum ≤ s.file.length := by
  revert h
  unfold load
  by_cases hj : s.options.maxJournalBytes<s.file.length
  · rw [if_pos hj]
    exact fun h => absurd rfl h
  · rw [if_neg hj]
    dsimp only
    by_cases hl : s.file.length<kJournalHeaderBytes
    · rw [scanJournal,if_pos hl]
      exact fun h => absurd rfl h
    · rw [scanJournal,if_neg hl]
      split_ifs
      · exact fun h => absurd rfl h
      · intro _
        obtain ⟨taken,ht,hs⟩ := @scanRecords_taken s.options s.file.length kJournalHeaderBytes 1
          (s.file.drop kJournalHeaderBytes) { bytesRead := s.file.length }
        rw [ht,List.nil_append]
        rw [List.length_drop] at hs
        omega

/-- A store that takes the whole file for records keeps doing so. -/
theorem append_length (hb : s.bytes=s.file.length)
    (ha : s.append kind payload at_=(.ok sequence,s')) :
    s'.bytes=s'.file.length ∧ s'.bytes=s.bytes+(kRecordHeaderBytes+payload.length) := by
  obtain ⟨_,_,hs⟩ := PersistenceStore.append_ok ha
  have hl : (s.appended kind payload at_).bytes.length=kRecordHeaderBytes+payload.length := by
    simp [JournalRecord.bytes_length,appended,kRecordHeaderBytes]
  rw [hs]
  dsimp only
  rw [overwrite_length (by omega),hl]
  omega

theorem appendAll_length (hb : s.bytes=s.file.length) (ha : appendAll s es=(.ok (),s')) :
    s'.file.length=s.file.length+size es := by
  induction es generalizing s with
  | nil =>
    simp only [appendAll,Prod.mk.injEq,true_and] at ha
    simp [← ha,size]
  | cons e es ih =>
    obtain ⟨kind,payload,at_⟩ := e
    rw [appendAll] at ha
    split at ha
    · simp at ha
    · next q s1 h1 =>
      obtain ⟨hb1,hl⟩ := append_length hb h1
      rw [ih hb1 ha]
      simp only [size,List.map_cons,List.sum_cons]
      omega

/-- Over a part of a header the first record is lost: `record_epoch` writes its header on it. -/
theorem not_continues_unheaded (hh : ¬Headed file) :
    ¬Continues options file kept wall epoch at_ es := by
  rintro ⟨s0,sequence,s1,s2,ho,hr,ha,ht,hrec⟩
  obtain ⟨hf,hb,hl⟩ := opened_unheaded hh ho
  obtain ⟨s',happ,hs⟩ := PersistenceStore.recordEpoch_ok hr
  obtain ⟨hb',hb''⟩ := append_length (by rw [hb,hf]) happ
  have h8 : (Base.leBytes 8 epoch.toNat).length=8 := Base.leBytes_length 8 _
  have hh40 : kRecordHeaderBytes=40 := rfl
  have hh48 : kJournalHeaderBytes=48 := rfl
  have hlen : s1.file.length=s'.file.length := by
    rw [hs]
    dsimp only
    rw [overwrite_length (Nat.zero_le _),journalHeaderBytes_length]
    omega
  have h2 := appendAll_length (by rw [hlen,hs]; exact hb') ha
  have hsize := load_records_size (s := s2) (by rw [hrec]; simp [numberFrom,epochEntry])
  rw [hrec,List.map_append,List.sum_append,numberFrom_size] at hsize
  simp only [size,epochEntry,List.map_cons,List.sum_cons] at hsize h2
  omega

theorem PersistenceStore.Holds.epoch_ok (h : s.Holds rs [])
    (hr : s.recordEpoch epoch at_=(.ok sequence,s')) :
    s.Fits (Base.leBytes 8 epoch.toNat) ∧ s'.options=s.options ∧ s'.bytes=s.bytes+48 ∧
    s'.Holds (rs++[s.appended .epochAdvanced (Base.leBytes 8 epoch.toNat) at_]) [] := by
  obtain ⟨s1,happ,hs⟩ := PersistenceStore.recordEpoch_ok hr
  obtain ⟨hfits,_,hs1⟩ := PersistenceStore.append_ok happ
  refine ⟨hfits,by rw [hs,hs1],?_,by simpa using h.recordEpoch_ok hr⟩
  rw [hs,hs1]
  simp [JournalRecord.bytes_length,appended]

/-- The new records as they stand in the journal. -/
theorem appended_numberFrom (h : s.lastSequence=UInt64.ofNat rs.length) :
    rs++[s.appended .epochAdvanced (Base.leBytes 8 epoch.toNat) at_]++numberFrom (UInt64.ofNat
      (rs++[s.appended .epochAdvanced (Base.leBytes 8 epoch.toNat) at_]).length+1) es=
    rs++numberFrom (UInt64.ofNat rs.length+1) (epochEntry epoch at_::es) := by
  rw [List.length_append,UInt64.ofNat_add,List.append_assoc,epochEntry,numberFrom,← h]
  rfl

/-- The journal goes on after a crash exactly when the crash left no file or a sound header, and
the ceilings have room. -/
theorem crash_continues_iff (h : Crashed options file kept) (wall epoch at_ : UInt64)
    (es : List Entry) : Continues options file kept wall epoch at_ es ↔
      Headed file ∧ options.Takes kept (epochEntry epoch at_::es) := by
  have h48 : kRecordHeaderBytes+(Base.leBytes 8 epoch.toNat).length=48 := by
    rw [Base.leBytes_length]; rfl
  constructor
  · intro hc
    have hh : Headed file := by
      by_contra hh
      exact not_continues_unheaded hh hc
    obtain ⟨s0,sequence,s1,s2,ho,hr,ha,hret⟩ := hc
    obtain ⟨rfl,h0⟩ := h.opened hh ho
    obtain ⟨hfits,ho1,hb1,h1⟩ := h0.epoch_ok hr
    obtain ⟨ho2,h2,hp,hb,hj⟩ := h1.appendAll_ok ha
    have hroom := h2.room hret.1
    have hends := h0.ends
    refine ⟨hh,?_,?_,?_⟩
    · intro e he
      rcases List.mem_cons.1 he with rfl | he
      · exact hfits.1
      · exact ho1 ▸ hp e he
    · have hf2 := hfits.2
      simp only [size,epochEntry,List.map_cons,List.sum_cons] at hb ⊢
      by_cases hes : es=[]
      · subst hes
        simp only [List.map_nil,List.sum_nil]
        omega
      · have hj := hj hes
        rw [ho1] at hj
        omega
    · have hc := hroom.2
      rw [ho2,ho1] at hc
      simpa [numberFrom_length,Nat.add_assoc,Nat.add_comm 1] using hc
  · rintro ⟨hh,hp,hj,hn⟩
    simp only [size,epochEntry,List.map_cons,List.sum_cons,h48] at hj
    rw [List.length_cons] at hn
    obtain ⟨s0,ho,rfl,hd,h0⟩ := h.opens hh ⟨by omega,by omega⟩ wall
    have hends := h0.ends
    have hfits : s0.Fits (Base.leBytes 8 epoch.toNat) :=
      ⟨hp _ List.mem_cons_self,by omega⟩
    obtain ⟨s',happ,hd'⟩ := append_succeeds hfits hd .epochAdvanced at_
    have hr : ∃ s1,s0.recordEpoch epoch at_=(.ok (s0.lastSequence+1),s1) ∧ s1.disk=[] := by
      rw [recordEpoch,happ]
      simp only [writeAt,hd',List.headD_nil]
      exact ⟨_,rfl,rfl⟩
    obtain ⟨s1,hr,hd1⟩ := hr
    obtain ⟨_,ho1,hb1,h1⟩ := h0.epoch_ok hr
    have hes : s1.bytes+size es ≤ s1.options.maxJournalBytes := by
      rw [ho1,hb1,size]
      omega
    obtain ⟨s2,ha⟩ := appendAll_succeeds hd1
      (fun e he => ho1 ▸ hp e (List.mem_cons_of_mem _ he)) hes
    obtain ⟨ho2,h2,_⟩ := h1.appendAll_ok ha
    rw [appended_numberFrom h0.last] at h2
    refine ⟨s0,_,s1,s2,ho,hr,ha,h2.returns_iff.2 ⟨⟨?_,?_⟩,torn_nil⟩⟩
    · rw [ho2,ho1]
      omega
    · rw [ho2,ho1,List.length_append,numberFrom_length,List.length_cons]
      exact hn

end Crash

open Sample

theorem not_headed_of_invalid {file : Bytes}
    (h : file ≠ [] ∧ validJournalHeader (file.take kJournalHeaderBytes)=none) : ¬Headed file := by
  rintro (h0 | hs)
  · exact h.1 h0
  · rw [h.2] at hs
    cases hs

/-- Twenty bytes of the new header, and then twenty bytes of its first rewrite, are all that
reaches the disk. -/
theorem crash_in_header :
    (Crashed journalOptions ((journalHeaderBytes 0 7).take 20) [] ∧
      ¬Continues journalOptions ((journalHeaderBytes 0 7).take 20) [] 10 1 11 []) ∧
    (∃ kept,Crashed journalOptions
        ({ fresh journalOptions [] with disk := [.done,.torn 20] }.recordEpoch 1 8).2.file kept ∧
      ¬Continues journalOptions
        ({ fresh journalOptions [] with disk := [.done,.torn 20] }.recordEpoch 1 8).2.file
        kept 10 1 11 []) := by
  have h : (openStore journalOptions [] [.torn 20] 7).1=
        refuse .persistenceIo "journal write failed" ∧
      (openStore journalOptions [] [.torn 20] 7).2.file=(journalHeaderBytes 0 7).take 20 ∧
      (openStore journalOptions [] [] 7).1=.ok () ∧
      ({ fresh journalOptions [] with disk := [.done,.torn 20] }.recordEpoch 1 8).1=
        refuse .persistenceIo "journal write failed" := by decide +kernel
  obtain ⟨h1,h2,h3,h4⟩ := h
  refine ⟨⟨h2 ▸ .creating (Prod.ext h1 rfl),?_⟩,_,
    .running (.opened (Prod.ext h3 rfl)) (.recording [] (Prod.ext h4 rfl)),?_⟩
  · exact not_continues_unheaded (not_headed_of_invalid (by decide +kernel))
  · exact not_continues_unheaded (not_headed_of_invalid (by decide +kernel))

/-- A crash in the third append of a journal costs that record alone. -/
theorem crash_in_append : Continues journalOptions
    ({ (shortAppend journalOptions []).2 with disk := [.torn 30] }.append
      .phaseCommitted [4,5,6] 10).2.file
    [longRecord,shortRecord 2] 11 1 12 [(.phaseRefused,[7],13)] := by
  have h : ({ (shortAppend journalOptions []).2 with disk := [.torn 30] }.append
      .phaseCommitted [4,5,6] 10).1=refuse .persistenceIo "journal write failed" ∧
      ((shortAppend journalOptions []).2.appended .phaseCommitted [4,5,6] 10).bytes.length=43 := by
    decide +kernel
  have hl := Left.appending [longRecord,shortRecord 2] (Prod.ext h.1 rfl)
  rw [h.2,if_neg (by decide)] at hl
  refine (crash_continues_iff (.running journaled_sample hl) 11 1 12 _).2 ⟨.inr ?_,?_,?_,?_⟩
  · decide +kernel
  · decide +kernel
  · decide +kernel
  · decide +kernel

end CompilerFabric
