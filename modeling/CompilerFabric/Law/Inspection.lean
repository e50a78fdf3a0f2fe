import CompilerFabric.Core.Coff

namespace CompilerFabric

open Inspection

namespace Inspection

/-- An inspection that ends with an answer or with a status. -/
def Total {α : Type} (x : Inspection α) : Prop := ∀ halt,x=.error halt → ∃ status,halt=.refused status

variable {α β : Type} {x : Inspection α}

theorem total_ok (a : α) : Total (.ok a : Inspection α) := fun _ h => nomatch h

theorem Total.bind {f : α → Inspection β} (hx : Total x) (hf : ∀ a,x=.ok a → Total (f a)) :
    Total (x >>= f) := by
  cases x with
  | error halt =>
    intro _ h
    cases h
    exact hx halt rfl
  | ok a => exact hf a rfl

theorem total_demand (ok : Prop) [Decidable ok] (code : StatusCode) (message : Bytes) :
    Total (demand ok code message) := by
  unfold demand
  split_ifs
  · exact total_ok ()
  · rintro _ ⟨⟩
    exact ⟨_,rfl⟩

@[simp] theorem demand_ok {ok : Prop} [Decidable ok] {code : StatusCode} {message : Bytes} {u : Unit} :
    demand ok code message=.ok u ↔ ok := by
  unfold demand
  split_ifs with h <;> simp [h]

theorem Total.demand {ok : Prop} [Decidable ok] {code : StatusCode} {message : Bytes}
    {f : Unit → Inspection β} (hf : ok → Total (f ())) : Total (demand ok code message >>= f) :=
  .bind (total_demand ok code message) fun _ h => hf (demand_ok.1 h)

@[simp] theorem ok_bind (a : α) (f : α → Inspection β) : ((.ok a : Inspection α) >>= f)=f a := rfl

end Inspection

section Reading

variable {bytes : Bytes} {n offset : Nat}

theorem byteAt_eq (h : offset<bytes.length) : byteAt bytes offset=.ok bytes[offset] := by
  simp [byteAt,h]

theorem readBytes_eq (h : offset+n ≤ bytes.length) :
    readBytes bytes n offset=.ok ((bytes.drop offset).take n) := by
  induction n generalizing offset with
  | zero => rfl
  | succ n ih =>
    have hlt : offset<bytes.length := by omega
    rw [readBytes,byteAt_eq hlt,ok_bind,ih (by omega),ok_bind,← List.getElem_cons_drop hlt]
    rfl

/-- The word at `offset`, zero where it is not all there. -/
def wordAt (width : Nat) (bytes : Bytes) (offset : Nat) : Nat :=
  if bytes.length<offset+width then 0 else getWord width offset bytes

theorem readWord_eq (width : Nat) (bytes : Bytes) (offset : Nat) :
    readWord width bytes offset=.ok (wordAt width bytes offset) := by
  unfold readWord wordAt
  split_ifs with h
  · rfl
  · rw [readBytes_eq (by omega)]
    rfl

@[simp] theorem readU16_eq (bytes : Bytes) (offset : Nat) :
    readU16 bytes offset=.ok (UInt16.ofNat (wordAt 2 bytes offset)) := by
  rw [readU16,readWord_eq]
  rfl

@[simp] theorem readU32_eq (bytes : Bytes) (offset : Nat) :
    readU32 bytes offset=.ok (UInt32.ofNat (wordAt 4 bytes offset)) := by
  rw [readU32,readWord_eq]
  rfl

theorem hasMzSignature_eq (h : 2 ≤ bytes.length) :
    hasMzSignature bytes=.ok (bytes.take 2=[77,90]) := by
  obtain ⟨a,b,rest,rfl⟩ : ∃ a b rest,bytes=a::b::rest := by
    match bytes,h with
    | a::b::rest,_ => exact ⟨a,b,rest,rfl⟩
  simp only [hasMzSignature,byteAt,List.getElem?_cons_zero,List.getElem?_cons_succ,ok_bind]
  by_cases ha : a=77 <;> simp [ha,pure,Except.pure]

theorem compareAt_eq {text : Bytes} (h : offset ≤ bytes.length) :
    compareAt bytes offset text=.ok ((bytes.drop offset).take text.length=text) :=
  if_neg (by omega)

/-- The text at `offset` ends before a zero byte, at the end or after `n` bytes. -/
theorem readText_eq : readText bytes n offset=
    .ok (((bytes.drop offset).take n).takeWhile (· ≠ 0)) := by
  induction n generalizing offset with
  | zero => rfl
  | succ n ih =>
    rw [readText]
    split_ifs with h
    · rw [byteAt_eq h,ok_bind,ih,← List.getElem_cons_drop h,List.take_succ_cons]
      by_cases hc : bytes[offset]=0
      · rw [if_pos hc,List.takeWhile_cons_of_neg (by simp [hc])]
        rfl
      · rw [if_neg hc,List.takeWhile_cons_of_pos (by simp [hc])]
        rfl
    · rw [List.drop_eq_nil_of_le (by omega)]
      rfl

end Reading

/-! PE images. -/

/-- The headers of a PE image stand in the bytes, with their signatures: the DOS header, the PE header
it points to and the optional header of the size this one declares. -/
structure PeHeaders (bytes : Bytes) : Prop where
  dos : 64 ≤ bytes.length
  mz : bytes.take 2=[77,90]
  coff : getWord 4 0x3C bytes+24 ≤ bytes.length
  pe : (bytes.drop (getWord 4 0x3C bytes)).take 4=[80,69,0,0]
  optional : getWord 4 0x3C bytes+24+getWord 2 (getWord 4 0x3C bytes+20) bytes ≤ bytes.length

/-- The offset of the PE header is within 24 bytes of the end of the 32 bits. -/
def Wraps (bytes : Bytes) : Prop :=
  64 ≤ bytes.length ∧ bytes.take 2=[77,90] ∧ 2^32-24 ≤ getWord 4 0x3C bytes

theorem getWord_lt (width offset : Nat) (bytes : Bytes) : getWord width offset bytes<256^width := by
  refine (Base.leValue_lt _).trans_le (Nat.pow_le_pow_right (by decide) ?_)
  simp

theorem u16_getWord (offset : Nat) (bytes : Bytes) :
    (UInt16.ofNat (getWord 2 offset bytes)).toNat=getWord 2 offset bytes := by
  rw [UInt16.toNat_ofNat']
  exact Nat.mod_eq_of_lt (getWord_lt 2 offset bytes)

theorem u32_getWord (offset : Nat) (bytes : Bytes) :
    (UInt32.ofNat (getWord 4 offset bytes)).toNat=getWord 4 offset bytes := by
  rw [UInt32.toNat_ofNat']
  exact Nat.mod_eq_of_lt (getWord_lt 4 offset bytes)

section Pe

variable {bytes : Bytes} {info : PeImageInfo}

/-- A sum of the 32 bits is the sum where it does not wrap. -/
theorem toNat_add_of_lt {e k : UInt32} (h : e.toNat+k.toNat<2^32) : (e+k).toNat=e.toNat+k.toNat := by
  rw [UInt32.toNat_add]
  exact Nat.mod_eq_of_lt h

theorem peOffset_toNat (h : 64 ≤ bytes.length) :
    (UInt32.ofNat (wordAt 4 bytes 0x3C)).toNat=getWord 4 0x3C bytes := by
  rw [wordAt,if_neg (by omega),u32_getWord]

/-- What the guard of the PE header offset says where the sum does not wrap. -/
theorem peOffset_range (hw : ¬Wraps bytes) (hlen : 64 ≤ bytes.length)
    (hmz : decide (bytes.take 2=[77,90])=true)
    (h : (UInt32.ofNat (wordAt 4 bytes 0x3C)+24).toNat ≤ bytes.length) :
    getWord 4 0x3C bytes<2^32-24 ∧ getWord 4 0x3C bytes+24 ≤ bytes.length := by
  have hlow : getWord 4 0x3C bytes<2^32-24 := by
    by_contra hc
    exact hw ⟨hlen,by simpa using hmz,by omega⟩
  have hk : (24 : UInt32).toNat=24 := rfl
  have he := peOffset_toNat hlen
  rw [toNat_add_of_lt (by omega)] at h
  exact ⟨hlow,by omega⟩

theorem inspectPeBytes_total (hw : ¬Wraps bytes) : (inspectPeBytes bytes).Total := by
  unfold inspectPeBytes
  refine .demand fun hlen => ?_
  rw [hasMzSignature_eq (by omega),ok_bind]
  refine .demand fun hmz => ?_
  rw [readU32_eq,ok_bind]
  refine .demand fun ⟨_,hrange⟩ => ?_
  obtain ⟨_,hcoff⟩ := peOffset_range hw hlen hmz hrange
  have he := peOffset_toNat hlen
  rw [compareAt_eq (by omega),ok_bind]
  refine .demand fun _ => ?_
  simp only [readU16_eq,readU32_eq,ok_bind]
  exact .demand fun _ => .demand fun _ => .demand fun _ => total_ok _

theorem peHeaders_of_ok (hw : ¬Wraps bytes) (h : inspectPeBytes bytes=.ok info) : PeHeaders bytes := by
  obtain ⟨_,hlen,h⟩ := Base.do_eq_ok.1 h
  have hlen := demand_ok.1 hlen
  rw [hasMzSignature_eq (by omega),ok_bind] at h
  obtain ⟨_,hmz,h⟩ := Base.do_eq_ok.1 h
  have hmz := demand_ok.1 hmz
  rw [readU32_eq,ok_bind] at h
  obtain ⟨_,hrange,h⟩ := Base.do_eq_ok.1 h
  obtain ⟨hlow,hcoff⟩ := peOffset_range hw hlen hmz (demand_ok.1 hrange).2
  have he := peOffset_toNat hlen
  rw [compareAt_eq (by omega),ok_bind] at h
  obtain ⟨_,hpe,h⟩ := Base.do_eq_ok.1 h
  have hpe := demand_ok.1 hpe
  simp only [readU16_eq,readU32_eq,ok_bind] at h
  obtain ⟨_,hoptional,_⟩ := Base.do_eq_ok.1 h
  have hoptional := (demand_ok.1 hoptional).2
  have hk : (4 : UInt32).toNat=4 := rfl
  rw [toNat_add_of_lt (by omega),he,hk,wordAt,if_neg (by omega),u16_getWord] at hoptional
  exact ⟨hlen,by simpa using hmz,hcoff,by simpa [he] using hpe,by
    simpa only [Nat.add_assoc,Nat.reduceAdd] using hoptional⟩

/-- Where the sum wraps the guard lets an offset behind the bytes through to `compare`. -/
theorem inspectPeBytes_thrown (hw : Wraps bytes) (hsize : bytes.length<2^32-24) :
    inspectPeBytes bytes=.error .thrown := by
  obtain ⟨hlen,hmz,hhigh⟩ := hw
  have he := peOffset_toNat hlen
  have hlt := getWord_lt 4 0x3C bytes
  have hk : (24 : UInt32).toNat=24 := rfl
  have hguard : UInt32.ofNat (wordAt 4 bytes 0x3C) ≠ 0 ∧
      (UInt32.ofNat (wordAt 4 bytes 0x3C)+24).toNat ≤ bytes.length := by
    constructor
    · intro hz
      rw [hz] at he
      have : (0 : UInt32).toNat=0 := rfl
      omega
    · rw [UInt32.toNat_add]
      omega
  unfold inspectPeBytes
  rw [hasMzSignature_eq (by omega),readU32_eq]
  simp only [demand,if_pos hlen,ok_bind,hmz,decide_true,if_pos,if_pos hguard]
  rw [compareAt,if_pos (by omega)]
  rfl

/-- Words and texts that stand in the first bytes stand in all of them. -/
theorem getWord_take {width offset n : Nat} (h : offset+width ≤ (bytes.take n).length) :
    getWord width offset (bytes.take n)=getWord width offset bytes := by
  rw [List.length_take] at h
  unfold getWord
  rw [List.drop_take,List.take_take,Nat.min_eq_left (by omega)]

theorem PeHeaders.of_take {n : Nat} (h : PeHeaders (bytes.take n)) : PeHeaders bytes := by
  have hlen := h.dos
  have hcoff := h.coff
  have hoptional := h.optional
  have he : getWord 4 0x3C (bytes.take n)=getWord 4 0x3C bytes := getWord_take (by omega)
  rw [he] at hcoff hoptional
  have ho : getWord 2 (getWord 4 0x3C bytes+20) (bytes.take n)=
      getWord 2 (getWord 4 0x3C bytes+20) bytes := getWord_take (by omega)
  rw [ho] at hoptional
  have hn : (bytes.take n).length=min n bytes.length := List.length_take
  have hpe := h.pe
  rw [he,List.drop_take,List.take_take,Nat.min_eq_left (by omega)] at hpe
  have hmz := h.mz
  rw [List.take_take,Nat.min_eq_left (by omega)] at hmz
  exact ⟨by omega,hmz,by omega,hpe,by omega⟩

theorem Wraps.take_iff {n : Nat} (hn : 64 ≤ n) : Wraps (bytes.take n) ↔ Wraps bytes := by
  have hl : (bytes.take n).length=min n bytes.length := List.length_take
  have hmz : (bytes.take n).take 2=bytes.take 2 := by
    rw [List.take_take,Nat.min_eq_left (by omega)]
  unfold Wraps
  rw [hl,hmz]
  constructor
  · rintro ⟨hlen,hm,hw⟩
    exact ⟨by omega,hm,by rwa [getWord_take (by omega)] at hw⟩
  · rintro ⟨hlen,hm,hw⟩
    exact ⟨by omega,hm,by rwa [getWord_take (by omega)]⟩

theorem inspectPeImage_content (path : Bytes) (bytes : Bytes) :
    inspectPeImage path (.content bytes)=inspectPeBytes (bytes.take 1048576) := by
  show inspectPeBytes (bytes.take (min bytes.length 1048576))=_
  rcases Nat.le_total bytes.length 1048576 with h | h
  · rw [Nat.min_eq_left h,List.take_length,List.take_of_length_le h]
  · rw [Nat.min_eq_right h]

/-- The inspection reads what is loaded, and takes what has its headers, as long as the offset of the PE
header does not wrap. -/
theorem inspectPeImage_safe_iff (path content : Bytes) :
    ((inspectPeImage path (.content content)).Total ∧
      ∀ info,inspectPeImage path (.content content)=.ok info → PeHeaders content) ↔
    ¬Wraps content := by
  rw [inspectPeImage_content,← Wraps.take_iff (n := 1048576) (by decide)]
  constructor
  · rintro ⟨ht,_⟩ hw
    have hlen : (content.take 1048576).length ≤ 1048576 := List.length_take_le _ _
    have ⟨_,he⟩ := ht _ (inspectPeBytes_thrown hw (by omega))
    exact nomatch he
  · exact fun hw => ⟨inspectPeBytes_total hw,fun _ h => (peHeaders_of_ok hw h).of_take⟩

/-- A DOS header that points to the last of the 32 bits. -/
def Sample.wrapping : Bytes := [77,90]++List.replicate 58 0++[255,255,255,255]

theorem inspectPeImage_wrapping : ¬(inspectPeImage [] (.content Sample.wrapping)).Total := by
  intro h
  have hthrown : inspectPeImage [] (.content Sample.wrapping)=.error .thrown := by decide +kernel
  have ⟨_,he⟩ := h _ hthrown
  exact nomatch he

end Pe

/-! COFF objects. -/

/-- The name a section header has itself, or the one it refers to in the string table. -/
def resolvedName (bytes : Bytes) (stringTable : Nat) (raw : Bytes) : Bytes :=
  let offset := stringTable+(strtoul (raw.drop 1)).toNat
  let name := (bytes.drop offset).takeWhile (· ≠ 0)
  if 2 ≤ raw.length ∧ raw.head?=some 47 ∧ (raw.drop 1).all isDecimalDigit ∧ name ≠ [] then name
  else raw

/-- The name of the section `i`, of eight bytes in the header or of the string table behind the symbols. -/
def sectionName (bytes : Bytes) (i : Nat) : Bytes :=
  resolvedName bytes (getWord 4 8 bytes+getWord 4 12 bytes*18)
    (((bytes.drop (20+40*i)).take 8).takeWhile (· ≠ 0))

/-- What a report says of an object whose section table is whole. -/
structure WholeSections (bytes : Bytes) (info : CoffObjectInfo) : Prop where
  inside : 20+40*getWord 2 2 bytes ≤ bytes.length
  names : info.sectionNames=((List.range (getWord 2 2 bytes)).map (sectionName bytes)).filter (· ≠ [])
  device : info.hasDeviceCode ↔ ∃ i<getWord 2 2 bytes,sectionName bytes i ∈ deviceCodeSections

/-- The header is the one of an object and declares more sections than there are headers for. -/
def CutSections (bytes : Bytes) : Prop :=
  20 ≤ bytes.length ∧ bytes.length ≤ kObjectCeiling ∧ bytes.take 2 ≠ [77,90] ∧
    getWord 2 16 bytes=0 ∧ bytes.length<20+40*getWord 2 2 bytes

section CoffObject

variable {bytes : Bytes} {info : CoffObjectInfo} {raw : Bytes} {stringTable : Nat}

theorem resolveName_eq : resolveName bytes stringTable raw=.ok (resolvedName bytes stringTable raw) := by
  unfold resolveName resolvedName
  by_cases hraw : raw.length<2 ∨ raw.head? ≠ some 47
  · rw [if_pos hraw,if_neg (fun h => hraw.elim (by omega) fun hh => hh h.2.1)]
    rfl
  have hlen : 2 ≤ raw.length := Nat.not_lt.1 (not_or.1 hraw).1
  have hhead : raw.head?=some 47 := not_not.1 (not_or.1 hraw).2
  rw [if_neg hraw]
  by_cases hdigits : (raw.drop 1).all isDecimalDigit
  · simp only [hdigits,Bool.not_true,Bool.false_eq_true,if_false]
    by_cases hend : bytes.length ≤ stringTable+(strtoul (raw.drop 1)).toNat
    · rw [if_pos hend,List.drop_eq_nil_of_le hend]
      simp [pure,Except.pure]
    · rw [if_neg hend,readText_eq,ok_bind,List.take_of_length_le (by simp)]
      cases (bytes.drop (stringTable+(strtoul (raw.drop 1)).toNat)).takeWhile (· ≠ 0) with
      | nil => simp [pure,Except.pure]
      | cons c name => simp [pure,Except.pure,hlen,hhead]
  · have hdigits : (raw.drop 1).all isDecimalDigit=false := by simpa using hdigits
    simp only [hdigits,Bool.not_false,if_true,Bool.false_eq_true,false_and,and_false,if_false]
    rfl

theorem withSections_eq (names : List Bytes) (info : CoffObjectInfo) :
    (names.foldl CoffObjectInfo.withSection info)=
      { info with sectionNames := info.sectionNames++names.filter (· ≠ []),
                  hasDeviceCode := info.hasDeviceCode || names.any (· ∈ deviceCodeSections) } := by
  induction names generalizing info with
  | nil => simp
  | cons name names ih =>
    rw [List.foldl_cons,ih]
    cases name with
    | nil => simp [CoffObjectInfo.withSection,Bool.or_assoc]
    | cons c name => simp [CoffObjectInfo.withSection,Bool.or_assoc]

/-- The loop resolves the name of each header in its turn. -/
theorem readSections_eq (count : Nat) (info : CoffObjectInfo) :
    readSections bytes stringTable count info=
      .ok (((List.range count).map fun i => resolvedName bytes stringTable
        (((bytes.drop (20+40*i)).take 8).takeWhile (· ≠ 0))).foldl CoffObjectInfo.withSection info) := by
  unfold readSections
  rw [List.foldl_map]
  induction List.range count generalizing info with
  | nil => rfl
  | cons i rest ih =>
    rw [List.foldlM_cons,readSectionName,readText_eq,ok_bind,resolveName_eq,ok_bind,Nat.mul_comm i]
    exact ih _

/-- What the header of an object is asked before its sections are read. -/
structure ObjectHeader (bytes : Bytes) : Prop where
  whole : 20 ≤ bytes.length
  notImage : bytes.take 2 ≠ [77,90]
  notLinked : getWord 2 16 bytes=0
  sections : getWord 2 2 bytes ≠ 0

theorem wordAt_eq {width offset : Nat} (h : offset+width ≤ bytes.length) :
    wordAt width bytes offset=getWord width offset bytes := if_neg (by omega)

theorem u16_eq_zero (offset : Nat) (bytes : Bytes) :
    UInt16.ofNat (getWord 2 offset bytes)=0 ↔ getWord 2 offset bytes=0 := by
  rw [← UInt16.toNat_inj,u16_getWord]
  rfl

theorem objectHeader_of_ok {fileSize : Nat} (h : inspectCoffBytes fileSize bytes=.ok info) :
    ObjectHeader bytes := by
  obtain ⟨_,hlen,h⟩ := Base.do_eq_ok.1 h
  have hlen := demand_ok.1 hlen
  rw [hasMzSignature_eq (by omega),ok_bind] at h
  obtain ⟨_,hmz,h⟩ := Base.do_eq_ok.1 h
  have hmz : bytes.take 2 ≠ [77,90] := by simpa using demand_ok.1 hmz
  simp only [readU16_eq,readU32_eq,ok_bind] at h
  obtain ⟨_,hoptional,h⟩ := Base.do_eq_ok.1 h
  have hoptional := demand_ok.1 hoptional
  obtain ⟨_,hsections,_⟩ := Base.do_eq_ok.1 h
  have hsections := demand_ok.1 hsections
  rw [wordAt_eq (by omega),u16_eq_zero] at hoptional
  rw [wordAt_eq (by omega),ne_eq,u16_eq_zero] at hsections
  exact ⟨hlen,hmz,hoptional,hsections⟩

/-- The report of an object tells of the headers that are there. -/
theorem ObjectHeader.inspected (h : ObjectHeader bytes) (fileSize : Nat) :
    ∃ info,inspectCoffBytes fileSize bytes=.ok info ∧ info.valid ∧
      let names := (List.range (min (getWord 2 2 bytes) ((bytes.length-20)/40))).map (sectionName bytes)
      info.sectionNames=names.filter (· ≠ []) ∧
        info.hasDeviceCode=names.any (· ∈ deviceCodeSections) := by
  have hlen := h.whole
  have hword {width offset : Nat} (hw : offset+width ≤ 20) :
      wordAt width bytes offset=getWord width offset bytes := wordAt_eq (by omega)
  have hoptional := (u16_eq_zero 16 bytes).2 h.notLinked
  have hsections := mt (u16_eq_zero 2 bytes).1 h.sections
  unfold inspectCoffBytes
  rw [hasMzSignature_eq (by omega)]
  simp only [readU16_eq,readU32_eq,ok_bind,demand,if_pos hlen,h.notImage,decide_false,if_true]
  simp only [hword (show 16+2 ≤ 20 by decide),hword (show 2+2 ≤ 20 by decide),
    hword (show 8+4 ≤ 20 by decide),hword (show 12+4 ≤ 20 by decide),u16_getWord,u32_getWord]
  rw [if_pos hoptional,if_pos hsections]
  simp only [ok_bind,readSections_eq,withSections_eq]
  exact ⟨_,rfl,rfl,List.nil_append _,Bool.false_or _⟩

/-- The report of an object of which all headers are there is whole. -/
theorem inspectCoffBytes_whole {fileSize : Nat} (h : inspectCoffBytes fileSize bytes=.ok info)
    (hw : 20+40*getWord 2 2 bytes ≤ bytes.length) : WholeSections bytes info := by
  obtain ⟨found,hf,_,hnames,hdevice⟩ := (objectHeader_of_ok h).inspected fileSize
  cases hf.symm.trans h
  rw [Nat.min_eq_left (by omega)] at hnames hdevice
  refine ⟨hw,hnames,?_⟩
  rw [hdevice]
  simp

theorem inspectCoffObject_content (path bytes : Bytes) : inspectCoffObject path (.content bytes)=
    (demand (bytes.length ≤ kObjectCeiling) .capacityExceeded
      (ascii "object file exceeds the inspection ceiling") >>= fun _ =>
        inspectCoffBytes bytes.length bytes) := by
  show (demand _ _ _ >>= fun _ => inspectCoffBytes bytes.length
    (bytes.take (min bytes.length bytes.length)))=_
  rw [Nat.min_self,List.take_length]

/-- The report of an object is whole unless the object is cut within its section table. -/
theorem inspectCoffObject_whole_iff (path content : Bytes) :
    (∀ info,inspectCoffObject path (.content content)=.ok info → info.valid →
      WholeSections content info) ↔ ¬CutSections content := by
  rw [inspectCoffObject_content]
  constructor
  · rintro h ⟨hlen,hceiling,hmz,hoptional,hcut⟩
    have ⟨info,hi,hvalid,_⟩ := ObjectHeader.inspected ⟨hlen,hmz,hoptional,by omega⟩ content.length
    have hinside := (h info (Base.do_eq_ok.2 ⟨(),demand_ok.2 hceiling,hi⟩) hvalid).inside
    omega
  · intro h info hi _
    obtain ⟨_,hceiling,hi⟩ := Base.do_eq_ok.1 hi
    have hheader := objectHeader_of_ok hi
    refine inspectCoffBytes_whole hi ?_
    by_contra hcut
    exact h ⟨hheader.whole,demand_ok.1 hceiling,hheader.notImage,hheader.notLinked,by omega⟩

/-- A header alone, of an object that declares one section. -/
def Sample.headerOnly : Bytes := [0x64,0x86,1,0]++List.replicate 16 0

theorem headerOnly_taken : ∃ info,inspectCoffObject [] (.content Sample.headerOnly)=.ok info ∧
    info.valid ∧ info.sectionNames=[] ∧ ¬WholeSections Sample.headerOnly info := by
  refine ⟨{ valid := true,machine := 0x8664,sectionCount := 1,fileSize := 20,
            detail := ascii "COFF object machine=0x34404 sections=1 symbols=0" },
    by decide +kernel,rfl,rfl,?_⟩
  intro h
  exact absurd h.inside (by decide)

end CoffObject

end CompilerFabric
