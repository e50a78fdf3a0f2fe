import CompilerFabric.Core.Digest
import Mathlib.Data.List.Chain

namespace CompilerFabric

def asciiIsSpace (c : UInt8) : Bool := c ∈ [32,9,10,13,12,11]

def trimAscii (text : Bytes) : Bytes :=
  ((text.dropWhile asciiIsSpace).reverse.dropWhile asciiIsSpace).reverse

def startsWithCi (text start : Bytes) : Bool :=
  decide (start.length ≤ text.length) && equalsAsciiCi (text.take start.length) start

/-- `std::string::find`: where the needle first stands. -/
def findText (needle : Bytes) : Bytes → Option Nat
  | [] => if needle.isEmpty then some 0 else none
  | c::text => if needle.isPrefixOf (c::text) then some 0 else (findText needle text).map (·+1)

def isDecimalDigit (c : UInt8) : Bool := 48 ≤ c && c ≤ 57

/-- `std::strtoull` to base ten: spaces and a sign first, digits up to the first other byte, and
the largest number where they say more than 64 bits hold. -/
def strtoull (text : Bytes) : UInt64 :=
  let text := text.dropWhile asciiIsSpace
  let digits := (if text.head?.any (· ∈ [43,45]) then text.tail else text).takeWhile isDecimalDigit
  let value := digits.foldl (fun value c => 10*value+(c.toNat-48)) 0
  if 2^64 ≤ value then 0xFFFFFFFFFFFFFFFF
  else if text.head?=some 45 then UInt64.ofNat (2^64-value)
  else UInt64.ofNat value

/-- `std::strtoul` to base ten, whose numbers are of 32 bits. -/
def strtoul (text : Bytes) : UInt32 :=
  let text := text.dropWhile asciiIsSpace
  let digits := (if text.head?.any (· ∈ [43,45]) then text.tail else text).takeWhile isDecimalDigit
  let value := digits.foldl (fun value c => 10*value+(c.toNat-48)) 0
  if 2^32 ≤ value then 0xFFFFFFFF
  else if text.head?=some 45 then UInt32.ofNat (2^32-value)
  else UInt32.ofNat value

namespace StrongId

variable {tag : IdTag}

/-- Sixteen digits fill the 64 bits of the value and no more. -/
def tryParse (text : Bytes) : Option (StrongId tag) :=
  let name := ascii tag.idName
  if text.length ≠ name.length+1+16 then none
  else if text.take name.length ≠ name then none
  else if text[name.length]? ≠ some 45 then none
  else ((text.drop (name.length+1)).foldlM
    (fun value c => (Digest.hexValue c).map (16*value+·)) 0).map fun value => ⟨UInt64.ofNat value⟩

def parse (text : Bytes) : StrongId tag := (tryParse text).getD {}

end StrongId

/-! What the renderings are made of, and that they parse. -/

/-- The bytes of decimal and of lower case hexadecimal digits. -/
def IsHexDigit (c : UInt8) : Prop := 48 ≤ c ∧ c ≤ 57 ∨ 97 ≤ c ∧ c ≤ 102

instance (c : UInt8) : Decidable (IsHexDigit c) := by unfold IsHexDigit; infer_instance

theorem isHexDigit_hexDigit {n : Nat} (h : n<16) : IsHexDigit (hexDigit n) := by
  decide +revert

theorem Digest.toHex_digits (d : Digest) : ∀ c ∈ d.toHex,IsHexDigit c := by
  intro c hc
  obtain ⟨x,_,hx⟩ := List.mem_flatMap.1 hc
  have hlt := x.toNat_lt
  rcases List.mem_pair.1 hx with rfl | rfl
  · exact isHexDigit_hexDigit (by omega)
  · exact isHexDigit_hexDigit (by omega)

theorem decimal_eq (n : Nat) : decimal n=(Nat.toDigits 10 n).map fun c => UInt8.ofNat c.toNat := by
  simp [decimal,ascii]

theorem decimal_digits (n : Nat) : ∀ c ∈ decimal n,isDecimalDigit c=true := by
  intro c hc
  rw [decimal_eq] at hc
  obtain ⟨d,hd,rfl⟩ := List.mem_map.1 hc
  have hdigit := Nat.isDigit_of_mem_toDigits (by decide) (by decide) hd
  simp only [Char.isDigit,Bool.and_eq_true,decide_eq_true_eq,ge_iff_le] at hdigit
  obtain ⟨hlo,hhi⟩ := hdigit
  have hlo' : 48 ≤ d.toNat := hlo
  have hhi' : d.toNat ≤ 57 := hhi
  simp only [isDecimalDigit,Bool.and_eq_true,decide_eq_true_eq,UInt8.le_iff_toNat_le,
    UInt8.toNat_ofNat']
  have h48 : (48 : UInt8).toNat=48 := rfl
  have h57 : (57 : UInt8).toNat=57 := rfl
  omega

theorem decimal_ne_nil (n : Nat) : decimal n ≠ [] := by
  rw [decimal_eq]
  simp

theorem decimal_length {n : Nat} (h : n<2^64) : (decimal n).length ≤ 20 := by
  rw [decimal_eq,List.length_map]
  exact (Nat.length_toDigits_le_iff (by decide) (by decide)).2 (by omega)

theorem isHexDigit_of_decimal {c : UInt8} (h : isDecimalDigit c=true) : IsHexDigit c := by
  simp only [isDecimalDigit,Bool.and_eq_true,decide_eq_true_eq] at h
  exact .inl h

theorem foldl_decimal (n : Nat) :
    (decimal n).foldl (fun value c => 10*value+(c.toNat-48)) 0=n := by
  have hbyte : ∀ c ∈ Nat.toDigits 10 n,(UInt8.ofNat c.toNat).toNat=c.toNat := by
    intro c hc
    have hdigit := Nat.isDigit_of_mem_toDigits (by decide) (by decide) hc
    simp only [Char.isDigit,Bool.and_eq_true,decide_eq_true_eq] at hdigit
    have hhi : c.toNat ≤ 57 := hdigit.2
    rw [UInt8.toNat_ofNat']
    omega
  have hfold : ∀ (cs : List Char) (init : Nat),(∀ c ∈ cs,(UInt8.ofNat c.toNat).toNat=c.toNat) →
      (cs.map fun c => UInt8.ofNat c.toNat).foldl (fun value c => 10*value+(c.toNat-48)) init=
        Nat.ofDigitChars 10 cs init := by
    intro cs
    induction cs with
    | nil => intro init _; simp
    | cons c cs ih =>
      intro init h
      rw [List.map_cons,List.foldl_cons,ih _ fun d hd => h d (by simp [hd]),
        Nat.ofDigitChars_cons,h c (by simp)]
      rfl
  rw [decimal_eq,hfold _ _ hbyte,Nat.ofDigitChars_toDigits (by decide) (by decide)]

theorem not_space_of_digit {c : UInt8} (h : IsHexDigit c) : asciiIsSpace c=false := by
  by_contra hs
  rw [Bool.not_eq_false,asciiIsSpace] at hs
  have hmem := of_decide_eq_true hs
  simp only [List.mem_cons,List.not_mem_nil,or_false] at hmem
  rcases hmem with rfl | rfl | rfl | rfl | rfl | rfl <;> exact absurd h (by decide)

theorem takeWhile_all {α : Type} {p : α → Bool} {l : List α} (h : ∀ x ∈ l,p x=true) :
    l.takeWhile p=l := by
  induction l with
  | nil => rfl
  | cons x l ih =>
    rw [List.takeWhile_cons,if_pos (h x (by simp)),ih fun y hy => h y (by simp [hy])]

theorem strtoull_decimal (v : UInt64) : strtoull (decimal v.toNat)=v := by
  have hdigit := decimal_digits v.toNat
  have hfold := foldl_decimal v.toNat
  have hlt := v.toNat_lt
  generalize htext : decimal v.toNat=text at hdigit hfold
  cases text with
  | nil => exact absurd htext (decimal_ne_nil _)
  | cons c text =>
    have hall := takeWhile_all hdigit
    have hc := hdigit c (by simp)
    have hspace : asciiIsSpace c=false := not_space_of_digit (isHexDigit_of_decimal hc)
    have hsign : c ≠ 43 ∧ c ≠ 45 := by
      constructor <;> (rintro rfl; exact absurd hc (by decide))
    have hdrop : (c::text).dropWhile asciiIsSpace=c::text := by
      rw [List.dropWhile_cons,if_neg (by simp [hspace])]
    simp only [strtoull,hdrop,List.head?_cons,Option.any_some,List.mem_cons,List.not_mem_nil,
      or_false,hsign.1,hsign.2,Bool.false_eq_true,if_false,hall,hfold,Option.some.injEq,
      decide_false]
    rw [if_neg (by omega)]
    simp

namespace StrongId

variable {tag : IdTag}

theorem toText_digits (i : StrongId tag) : ∃ digits,i.toText=ascii tag.idName++45::digits ∧
    digits.length=16 ∧ (∀ c ∈ digits,IsHexDigit c) ∧
    digits.foldlM (fun value c => (Digest.hexValue c).map (16*value+·)) 0=some i.value.toNat := by
  refine ⟨(List.range 16).map fun k => hexDigit (i.value.toNat/16^(15-k)%16),by simp [toText],
    by simp,?_,?_⟩
  · intro c hc
    obtain ⟨k,_,rfl⟩ := List.mem_map.1 hc
    exact isHexDigit_hexDigit (Nat.mod_lt _ (by decide))
  · -- after `n` digits the value is what the text says of the number's top
    have hstep : ∀ n ≤ 16,((List.range n).map fun k =>
        hexDigit (i.value.toNat/16^(15-k)%16)).foldlM
          (fun value c => (Digest.hexValue c).map (16*value+·)) 0=
            some (i.value.toNat/16^(16-n)) := by
      intro n hn
      induction n with
      | zero =>
        have hlt := i.value.toNat_lt
        simp only [List.range_zero,List.map_nil,List.foldlM_nil,Nat.sub_zero]
        rw [Nat.div_eq_of_lt (by omega)]
        rfl
      | succ n ih =>
        have hmod : i.value.toNat/16^(15-n)%16<16 := Nat.mod_lt _ (by decide)
        rw [List.range_succ,List.map_append,List.foldlM_append,ih (by omega)]
        simp only [List.map_cons,List.map_nil,List.foldlM_cons,List.foldlM_nil,
          Option.bind_eq_bind,Option.bind_some,Digest.hexValue_hexDigit _ hmod,Option.map_some]
        have hpow : 16^(16-n)=16^(15-n)*16 := by
          rw [← Nat.pow_succ]
          congr 1
          omega
        have hsub : 16-(n+1)=15-n := by omega
        rw [hpow,hsub,← Nat.div_div_eq_div_mul]
        exact congrArg some (Nat.div_add_mod _ _)
    simpa using hstep 16 (Nat.le_refl _)

theorem parse_toText (i : StrongId tag) : parse i.toText=i := by
  obtain ⟨digits,ht,hl,_,hv⟩ := i.toText_digits
  have hlen : i.toText.length=(ascii tag.idName).length+1+16 := by
    rw [ht,List.length_append,List.length_cons,hl]
  have htake : i.toText.take (ascii tag.idName).length=ascii tag.idName := by
    rw [ht,List.take_left]
  have hdash : i.toText[(ascii tag.idName).length]?=some 45 := by
    rw [ht,List.getElem?_append_right (Nat.le_refl _)]
    simp
  have hdrop : i.toText.drop ((ascii tag.idName).length+1)=digits := by
    rw [ht,← List.drop_drop,List.drop_left]
    rfl
  rw [parse,tryParse,if_neg (by simp [hlen]),if_neg (by simp [htake]),if_neg (by simp [hdash]),hdrop,hv]
  simp

end StrongId

/-- A needle is found where it stands when its first two bytes do not meet before. -/
theorem findText_append {a b : UInt8} {text : Bytes} (hab : a ≠ b)
    (h : text.IsChain fun x y => ¬(x=a ∧ y=b)) (t rest : Bytes) :
    findText (a::b::t) (text++(a::b::t++rest))=some text.length := by
  induction text with
  | nil => simp [findText]
  | cons c text ih =>
    have hnot : (a::b::t).isPrefixOf (c::(text++(a::b::t++rest)))=false := by
      cases text with
      | nil =>
        simp only [List.nil_append,List.cons_append,List.isPrefixOf_cons_cons,
          Bool.and_eq_false_iff,beq_eq_false_iff_ne]
        exact .inr (.inl hab.symm)
      | cons d text =>
        rw [List.isChain_cons_cons] at h
        simp only [List.cons_append,List.isPrefixOf_cons_cons,Bool.and_eq_false_iff,beq_eq_false_iff_ne]
        by_cases hc : a=c
        · exact .inr (.inl fun hb => h.1 ⟨hc.symm,hb.symm⟩)
        · exact .inl hc
    rw [List.cons_append,findText,hnot,if_neg Bool.false_ne_true,ih h.of_cons]
    rfl

theorem isChain_of_forall_ne {a b : UInt8} {text : Bytes} (h : ∀ c ∈ text,c ≠ b) :
    text.IsChain fun x y => ¬(x=a ∧ y=b) := by
  induction text with
  | nil => exact .nil
  | cons c text ih =>
    cases text with
    | nil => exact .singleton c
    | cons d text =>
      exact List.isChain_cons_cons.2 ⟨fun hcd => h d (by simp) hcd.2,ih fun x hx => h x (by simp [hx])⟩

end CompilerFabric
