import CompilerFabric.Core.Artifact
import CompilerFabric.Core.Text

namespace CompilerFabric

namespace DiagnosticSet

def kMaxMessageBytes : Nat := 8192

end DiagnosticSet

inductive Dialect
  | msvc | nvcc
deriving DecidableEq

def isAsciiAlpha (c : UInt8) : Bool := 65 ≤ c && c ≤ 90 || 97 ≤ c && c ≤ 122

def isAsciiAlnum (c : UInt8) : Bool := isAsciiAlpha c || isDecimalDigit c

/-- Longest first, so that "fatal error" wins over "error". -/
def severityWords : List (Bytes × DiagnosticSeverity) :=
  [(ascii "fatal error",.fatal),(ascii "internal error",.internal),(ascii "fatal",.fatal),
    (ascii "error",.error),(ascii "warning",.warning),(ascii "note",.info),(ascii "info",.info),
    (ascii "remark",.info)]

/-- `is_severity_word`: the length of the word that stands at the position, and what it says. -/
def severityWord (text : Bytes) (position : Nat) : Option (Nat × DiagnosticSeverity) :=
  severityWords.findSome? fun (word,severity) =>
    let stop := position+word.length
    if text.length<stop then none
    else if !equalsAsciiCi ((text.drop position).take word.length) word then none
    else if text[stop]?.any (fun c => isAsciiAlnum c || c=95) then none
    else some (word.length,severity)

/-- `rfind`: where the byte last stands. -/
def lastIndexOf (c : UInt8) (text : Bytes) : Option Nat :=
  if c ∈ text then some (text.length-1-text.reverse.idxOf c) else none

/-- The numbers in the brackets a location ends with. -/
def locationNumbers (head : Bytes) : Option (Nat × List Bytes) :=
  if head.getLast? ≠ some 41 then none
  else match lastIndexOf 40 head with
    | none => none
    | some start =>
        let inner := (head.drop (start+1)).take (head.length-start-2)
        let parts := inner.splitOn 44
        let numeric := !inner.isEmpty && parts.all fun part =>
          !(trimAscii part).isEmpty && (trimAscii part).all isDecimalDigit
        if numeric then some (start,parts) else none

/-- "path(line,col)", "path(line)" or "path" before a severity word, and how much of the text that
took. -/
def parseLocation (text : Bytes) (out : Diagnostic) : Nat × Diagnostic :=
  let head := ((trimAscii text).reverse.dropWhile (· ∈ [32,58])).reverse
  if head.isEmpty then (0,out)
  else match locationNumbers head with
    | some (start,parts) =>
        (text.length,{ out with file := head.take start,
                                line := (parts[0]?.map strtoul).getD out.line,
                                column := (parts[1]?.map strtoul).getD out.column })
    | none => if 512<head.length then (0,out) else (text.length,{ out with file := head })

/-- A stable code such as C2039, LNK2019 or 20012. -/
def parseCode (text : Bytes) : Bytes :=
  let token := (trimAscii text).takeWhile isAsciiAlnum
  if token.isEmpty ∨ 16<token.length then []
  else if !token.any isDecimalDigit then []
  else if !token.any isAsciiAlpha ∧ token.length<4 then []
  else token

/-- The first severity word behind a separator or at the start: where it is, how long and what it
says. -/
def findSeverity (text : Bytes) (cursor : Nat) : Option (Nat × Nat × DiagnosticSeverity) :=
  if cursor<text.length then
    match severityWord text cursor with
    | some (length,severity) =>
        if cursor=0 ∨ text[cursor-1]?.any (· ∈ [32,58]) then some (cursor,length,severity)
        else findSeverity text (cursor+1)
    | none => findSeverity text (cursor+1)
  else none
termination_by text.length-cursor

def dropColon (text : Bytes) : Bytes :=
  if text.head?=some 58 then trimAscii text.tail else text

theorem trimAscii_length (text : Bytes) : (trimAscii text).length ≤ text.length := by
  have h := (List.dropWhile_suffix asciiIsSpace (l := text)).length_le
  have hr := (List.dropWhile_suffix asciiIsSpace
    (l := (text.dropWhile asciiIsSpace).reverse)).length_le
  rw [List.length_reverse] at hr
  rw [trimAscii,List.length_reverse]
  omega

/-- `while (!text.empty() && text.front() == ':') text = trim_ascii(text.substr(1))`. -/
def dropColons (text : Bytes) : Bytes :=
  if text.head?=some 58 then dropColons (trimAscii text.tail) else text
termination_by text.length
decreasing_by
  next h =>
  have hlt := trimAscii_length text.tail
  cases text with
  | nil => exact nomatch h
  | cons c text => exact Nat.lt_succ_of_le hlt

/-- What follows the severity word, as the dialect has it: the code and the message. -/
def parseMessage (dialect : Dialect) (rest : Bytes) : Bytes × Bytes :=
  match dialect with
  | .msvc =>
      let trimmed := dropColon (trimAscii rest)
      let code := parseCode trimmed
      if code.isEmpty then ([],trimmed)
      else (code,dropColon (trimAscii (trimmed.drop code.length)))
  | .nvcc =>
      let trimmed := dropColons (trimAscii rest)
      let code := parseCode trimmed
      if code.length ≤ 4 then ([],trimmed)
      else (code,dropColons (trimAscii (trimmed.drop code.length)))

/-- The body of the loop of `parse_lines` behind the cut of the line. -/
def parseLine (dialect : Dialect) (origin line : Bytes) : Diagnostic :=
  let diagnostic : Diagnostic := { origin,raw := line }
  match findSeverity line 0 with
  | none => { diagnostic with severity := .unknown,message := trimAscii line }
  | some (start,length,severity) =>
      let (_,diagnostic) := parseLocation (line.take start) { diagnostic with severity }
      let (code,message) := parseMessage dialect (line.drop (start+length))
      { diagnostic with code,message }

/-- `if (!line.empty() && line.back() == '\r') line.remove_suffix(1)`. -/
def withoutReturn (line : Bytes) : Bytes :=
  if line.getLast?=some 13 then line.dropLast else line

/-- The loop over the lines: up to the next newline or the end, and one past the end it stops. -/
def readLines (read : Bytes → Diagnostic) (output : Bytes) (start : Nat) : List Diagnostic :=
  if start ≤ output.length then
    let position := start+(output.drop start).idxOf 10
    let line := withoutReturn ((output.drop start).take (position-start))
    if (trimAscii line).isEmpty then readLines read output (position+1)
    else read (line.take DiagnosticSet.kMaxMessageBytes) :: readLines read output (position+1)
  else []
termination_by output.length+1-start

def parseLines (output origin : Bytes) (dialect : Dialect) : List Diagnostic :=
  readLines (parseLine dialect origin) output 0

def normalizeMsvcOutput (output origin : Bytes) : List Diagnostic := parseLines output origin .msvc

def normalizeNvccOutput (output origin : Bytes) : List Diagnostic := parseLines output origin .nvcc

def normalizeGenericOutput (output origin : Bytes) : List Diagnostic :=
  readLines (fun line => { severity := .unknown,origin,raw := line,message := line }) output 0

end CompilerFabric
