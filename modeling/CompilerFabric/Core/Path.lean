import CompilerFabric.Core.Identity

namespace CompilerFabric

def isSlash (c : UInt8) : Bool := c==47 || c==92

def isDriveLetter (c : UInt8) : Bool := 97 ≤ asciiLower c && asciiLower c ≤ 122

/-- Where the root name (`C:`, `\\server`, `\\?`) of a Windows path ends. -/
def rootNameEnd : Bytes → Nat
  | c::d::rest =>
      if isDriveLetter c && d==58 then 2
      else if !isSlash c then 0
      else match rest with
        | q::s::after =>
            if isSlash s && !(after.head?.any isSlash) &&
                ((isSlash d && (q==63 || q==46)) || (d==63 && q==63)) then 3
            else if isSlash d && !isSlash q then 3+(s::after).findIdx isSlash
            else 0
        | [q] => if isSlash d && !isSlash q then 3 else 0
        | [] => 0
  | _ => 0

def pathParts (rel : Bytes) : List Bytes := (rel.splitOnP isSlash).filter fun part => !part.isEmpty

/-- `.` and `..` elimination, most recent element first. -/
def foldParts (rooted : Bool) : List Bytes → List Bytes → List Bytes
  | acc,[] => acc
  | acc,part::parts =>
      if part==[46] then foldParts rooted acc parts
      else if part==[46,46] then
        match acc with
        | [] => foldParts rooted (if rooted then [] else [part]) parts
        | last::before =>
            foldParts rooted (if last==[46,46] then part::acc else before) parts
      else foldParts rooted (part::acc) parts

def joinAscii (parts : List Bytes) (separator : Bytes) : Bytes := separator.intercalate parts

/-- `std::filesystem::path::lexically_normal`, with the Windows separators. -/
def lexicallyNormal (path : Bytes) : Bytes :=
  if path.isEmpty then [] else
    let n := rootNameEnd path
    let root := (path.take n).map fun c => if c==47 then 92 else c
    let rel := path.drop n
    let rooted := rel.head?.any isSlash
    let parts := pathParts rel
    let kept := foldParts rooted [] parts
    let trailing := (rel.getLast?.any isSlash || parts.getLast?==some [46] ||
        parts.getLast?==some [46,46]) && !kept.isEmpty && kept.head? != some [46,46]
    let body := joinAscii kept.reverse [92]++(if trailing then [92] else [])
    let out := root++(if rooted then [92] else [])++body
    if out.isEmpty then [46] else out

/-- The trailing-separator loop of `normalize_path`, on the reversed text. -/
def stripSeparators : Bytes → Bytes
  | [] => []
  | c::rest =>
      if 3 ≤ rest.length && isSlash c && !(rest.length==2 && rest.head?==some 58) then
        stripSeparators rest
      else c::rest

def normalizePath (path : Bytes) : Bytes := (stripSeparators (lexicallyNormal path).reverse).reverse

def canonicalPathKey (path : Bytes) : Bytes :=
  (normalizePath path).map fun c => if c==47 then 92 else asciiLower c

/-- `path::extension`: from the last dot of the file name, unless that dot is its first byte
or the name is a dot entry. -/
def pathExtension (path : Bytes) : Bytes :=
  let name := (path.reverse.takeWhile fun c => !isSlash c && c ≠ 58).reverse
  let tail := (name.reverse.takeWhile (· ≠ 46)).reverse
  if tail.length+1<name.length ∧ name ≠ [46,46] then 46::tail else []

end CompilerFabric
