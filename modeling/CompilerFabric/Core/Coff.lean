import CompilerFabric.Core.Journal
import CompilerFabric.Core.Text

namespace CompilerFabric

/-- How an inspection ends without an answer: with a status, by a read outside the loaded bytes, or
with an exception of the standard library. -/
inductive Halt
  | refused (status : Status)
  | overread
  | thrown
deriving DecidableEq

abbrev Inspection (α : Type) := Except Halt α

/-- What the file system answers about a file. -/
inductive FileView
  | missing
  | unsized
  | unreadable (size : Nat)
  | content (bytes : Bytes)
deriving DecidableEq

namespace Inspection

/-- `if (!ok) return Status(...)`. -/
def demand (ok : Prop) [Decidable ok] (code : StatusCode) (message : Bytes) : Inspection Unit :=
  if ok then .ok () else .error (.refused ⟨code,message⟩)

/-- `bytes[offset]`. -/
def byteAt (bytes : Bytes) (offset : Nat) : Inspection UInt8 :=
  match bytes[offset]? with
  | some c => .ok c
  | none => .error .overread

/-- `bytes.compare(offset, text.size(), text, text.size()) == 0`. -/
def compareAt (bytes : Bytes) (offset : Nat) (text : Bytes) : Inspection Bool :=
  if bytes.length<offset then .error .thrown
  else .ok ((bytes.drop offset).take text.length=text)

end Inspection

open Inspection

/-- The loop over the bytes of a word. -/
def readBytes (bytes : Bytes) : Nat → Nat → Inspection Bytes
  | 0,_ => .ok []
  | n+1,offset => do
      let c ← byteAt bytes offset
      let rest ← readBytes bytes n (offset+1)
      return c::rest

/-- Read `width` bytes as a number, zero where they are not all there. -/
def readWord (width : Nat) (bytes : Bytes) (offset : Nat) : Inspection Nat :=
  if bytes.length<offset+width then .ok 0 else Base.leValue <$> readBytes bytes width offset

def readU16 (bytes : Bytes) (offset : Nat) : Inspection UInt16 :=
  UInt16.ofNat <$> readWord 2 bytes offset

def readU32 (bytes : Bytes) (offset : Nat) : Inspection UInt32 :=
  UInt32.ofNat <$> readWord 4 bytes offset

/-- Read on to a zero byte, to the end of the bytes or for `n` bytes. -/
def readText (bytes : Bytes) : Nat → Nat → Inspection Bytes
  | 0,_ => .ok []
  | n+1,offset =>
      if offset<bytes.length then do
        let c ← byteAt bytes offset
        if c=0 then return []
        let text ← readText bytes n (offset+1)
        return c::text
      else .ok []

def readSectionName (bytes : Bytes) (offset : Nat) : Inspection Bytes := readText bytes 8 offset

def readFileHead (path : Bytes) (file : FileView) (maxBytes : Nat) : Inspection Bytes :=
  match file with
  | .missing => .error (.refused ⟨.outputMissing,ascii "file does not exist: "++path⟩)
  | .unsized =>
      .error (.refused ⟨.outputValidationFailed,ascii "file size is unavailable: "++path⟩)
  | .unreadable _ =>
      .error (.refused ⟨.permissionDenied,ascii "file could not be opened: "++path⟩)
  | .content bytes => .ok (bytes.take (min bytes.length maxBytes))

/-- `bytes[0] == 'M' && bytes[1] == 'Z'`. -/
def hasMzSignature (bytes : Bytes) : Inspection Bool := do
  if (← byteAt bytes 0)=77 then return (← byteAt bytes 1)=90 else return false

structure PeImageInfo where
  valid : Bool := false
  machine : UInt16 := 0
  subsystem : UInt16 := 0
  characteristics : UInt16 := 0
  sectionCount : UInt16 := 0
  timestamp : UInt32 := 0
  sizeOfImage : UInt32 := 0
  entryPointRva : UInt32 := 0
  isExecutable : Bool := false
  isDll : Bool := false
  largeAddressAware : Bool := false
  hasImports : Bool := false
  detail : Bytes := []
deriving DecidableEq

def PeImageInfo.describe (info : PeImageInfo) : Bytes :=
  ascii "PE image machine=0x"++decimal info.machine.toNat++ascii " subsystem="++
    decimal info.subsystem.toNat++ascii " sections="++decimal info.sectionCount.toNat++
    if info.isDll then ascii " dll" else ascii " exe"

/-- `inspect_pe_image` behind the reading. The offset of the PE header is a number of 32 bits, and
so is what is added to it. -/
def inspectPeBytes (bytes : Bytes) : Inspection PeImageInfo := do
  demand (64 ≤ bytes.length) .outputCorrupt (ascii "file is too small to be a PE image")
  let mz ← hasMzSignature bytes
  demand (mz=true) .outputUnexpectedFormat (ascii "file has no MZ signature")
  let peOffset ← readU32 bytes 0x3C
  demand (peOffset ≠ 0 ∧ (peOffset+24).toNat ≤ bytes.length) .outputCorrupt
    (ascii "PE header offset is out of range")
  let pe ← compareAt bytes peOffset.toNat [80,69,0,0]
  demand (pe=true) .outputCorrupt (ascii "PE signature is absent")
  let coff := (peOffset+4).toNat
  let machine ← readU16 bytes coff
  let sectionCount ← readU16 bytes (coff+2)
  let timestamp ← readU32 bytes (coff+4)
  let optionalSize ← readU16 bytes (coff+16)
  let characteristics ← readU16 bytes (coff+18)
  let optional := coff+20
  demand (2 ≤ optionalSize ∧ optional+optionalSize.toNat ≤ bytes.length) .outputCorrupt
    (ascii "PE optional header is truncated")
  let magic ← readU16 bytes optional
  demand (magic=0x010B ∨ magic=0x020B) .outputUnexpectedFormat
    (ascii "PE optional header magic is not PE32/PE32+")
  let entryPointRva ← readU32 bytes (optional+16)
  let subsystem ← readU16 bytes (optional+68)
  let sizeOfImage ← readU32 bytes (optional+56)
  let dllCharacteristics ← readU16 bytes (optional+70)
  let isDll : Bool := characteristics &&& 0x2000 ≠ 0
  demand (sectionCount ≠ 0) .outputCorrupt (ascii "PE image declares no sections")
  let info : PeImageInfo := { valid := true,machine,subsystem,characteristics,sectionCount,timestamp,
                              sizeOfImage,entryPointRva,isDll,
                              isExecutable := !isDll && entryPointRva ≠ 0,
                              largeAddressAware := dllCharacteristics &&& 0x0020 ≠ 0 }
  return { info with detail := info.describe }

def inspectPeImage (path : Bytes) (file : FileView) : Inspection PeImageInfo := do
  inspectPeBytes (← readFileHead path file 1048576)

structure CoffObjectInfo where
  valid : Bool := false
  machine : UInt16 := 0
  sectionCount : UInt16 := 0
  characteristics : UInt16 := 0
  symbolCount : UInt32 := 0
  timestamp : UInt32 := 0
  fileSize : UInt64 := 0
  sectionNames : List Bytes := []
  hasDeviceCode : Bool := false
  detail : Bytes := []
deriving DecidableEq

def kObjectCeiling : Nat := 256*1024*1024

def deviceCodeSections : List Bytes :=
  [ascii ".nv.info",ascii ".nv_fatbin",ascii "nv_fatbin",ascii ".nvFatBinSegment"]

/-- A name such as "/5317" is an offset into the string table. -/
def resolveName (bytes : Bytes) (stringTable : Nat) (raw : Bytes) : Inspection Bytes := do
  if raw.length<2 ∨ raw.head? ≠ some 47 then return raw
  let digits := raw.drop 1
  if !digits.all isDecimalDigit then return raw
  let offset := stringTable+(strtoul digits).toNat
  if bytes.length ≤ offset then return raw
  let name ← readText bytes (bytes.length-offset) offset
  return if name.isEmpty then raw else name

def CoffObjectInfo.withSection (info : CoffObjectInfo) (name : Bytes) : CoffObjectInfo :=
  { info with sectionNames := if name.isEmpty then info.sectionNames else info.sectionNames++[name],
              hasDeviceCode := info.hasDeviceCode || name ∈ deviceCodeSections }

def CoffObjectInfo.describe (info : CoffObjectInfo) : Bytes :=
  ascii "COFF object machine=0x"++decimal info.machine.toNat++ascii " sections="++
    decimal info.sectionCount.toNat++ascii " symbols="++decimal info.symbolCount.toNat++
    if info.hasDeviceCode then ascii " with device code" else []

/-- The loop over the section headers, as many as are there. -/
def readSections (bytes : Bytes) (stringTable count : Nat) (info : CoffObjectInfo) :
    Inspection CoffObjectInfo :=
  (List.range count).foldlM (fun info i => do
    let raw ← readSectionName bytes (20+i*40)
    let name ← resolveName bytes stringTable raw
    return info.withSection name) info

/-- `inspect_coff_object` behind the reading. -/
def inspectCoffBytes (fileSize : Nat) (bytes : Bytes) : Inspection CoffObjectInfo := do
  demand (20 ≤ bytes.length) .outputCorrupt (ascii "file is too small to be a COFF object")
  let mz ← hasMzSignature bytes
  demand (mz=false) .outputUnexpectedFormat (ascii "file is a PE image, not a COFF object")
  let machine ← readU16 bytes 0
  let sectionCount ← readU16 bytes 2
  let timestamp ← readU32 bytes 4
  let symbolCount ← readU32 bytes 12
  let optionalSize ← readU16 bytes 16
  let characteristics ← readU16 bytes 18
  demand (optionalSize=0) .outputUnexpectedFormat
    (ascii "file has an optional header and is therefore not a COFF object")
  demand (sectionCount ≠ 0) .outputCorrupt (ascii "COFF object declares no sections")
  let symbolTable ← readU32 bytes 8
  let stringTable := symbolTable.toNat+symbolCount.toNat*18
  let available := (bytes.length-20)/40
  let count := min sectionCount.toNat available
  let info ← readSections bytes stringTable count
    { fileSize := UInt64.ofNat fileSize,machine,sectionCount,timestamp,symbolCount,characteristics }
  let info := { info with valid := true }
  return { info with detail := info.describe }

def inspectCoffObject (path : Bytes) (file : FileView) : Inspection CoffObjectInfo := do
  let fileSize ← match file with
    | .missing | .unsized =>
        .error (.refused ⟨.outputMissing,ascii "object file is unavailable: "++path⟩)
    | .unreadable size => .ok size
    | .content bytes => .ok bytes.length
  demand (fileSize ≤ kObjectCeiling) .capacityExceeded
    (ascii "object file exceeds the inspection ceiling")
  inspectCoffBytes fileSize (← readFileHead path file fileSize)

end CompilerFabric
