import CompilerFabric.Base.Format
import Mathlib.Data.List.TakeWhile

namespace CompilerFabric.Base.Argv

/-- What stands between arguments. -/
def isBlank (c : UInt8) : Bool := c ∈ [32,9]

/-- The word a scan has in hand, with the backslashes it has kept back. -/
def held (word : Option Bytes) (slashes : Nat) : Bytes := word.getD []++List.replicate slashes 92

/-- A command line cut up by the rules of the C runtime: backslashes stand for themselves unless
a quote follows, then two make one, and the quote is literal behind one left over and toggles the
quoting otherwise. -/
def split : Bool → Nat → Option Bytes → Bytes → List Bytes
  | _,slashes,word,[] => (word.map fun w => held (some w) slashes).toList
  | quoted,slashes,word,c::rest =>
      if c=92 then split quoted (slashes+1) (some (word.getD [])) rest
      else if c=34 then
        if slashes%2=1 then split quoted 0 (some (held word (slashes/2)++[34])) rest
        else split (!quoted) 0 (some (held word (slashes/2))) rest
      else if !quoted && isBlank c then
        (word.map fun w => held (some w) slashes).toList++split false 0 none rest
      else split quoted 0 (some (held word slashes++[c])) rest

/-- The name of the program, which comes first: there a quote toggles and nothing else is special. -/
def splitProgram : Bool → Bytes → Bytes → List Bytes
  | _,word,[] => [word]
  | quoted,word,c::rest =>
      if c=34 then splitProgram (!quoted) word rest
      else if !quoted && isBlank c then word::split false 0 none rest
      else splitProgram quoted (word++[c]) rest

/-- A line is handed over as a C string. -/
def cString (line : Bytes) : Bytes := line.takeWhile (· ≠ 0)

def arguments (line : Bytes) : List Bytes := split false 0 none (cString line)

def commandLine (line : Bytes) : List Bytes := splitProgram false [] (cString line)

/-- An argument ends where the line does or a blank follows. -/
def Ends (rest : Bytes) : Prop := rest.head?.all isBlank=true

/-- An argument that means itself outside quotes. -/
def Plain (word : Bytes) : Prop := ∀ c ∈ word,c ≠ 34 ∧ isBlank c=false

variable {quoted : Bool} {slashes : Nat} {word rest : Bytes} {c : UInt8}

@[simp] theorem held_some (w : Bytes) (n : Nat) : held (some w) n=w++List.replicate n 92 := rfl

@[simp] theorem split_slash (word : Option Bytes) :
    split quoted slashes word (92::rest)=split quoted (slashes+1) (some (word.getD [])) rest := by
  simp [split]

theorem split_replicate (n : Nat) : split quoted slashes (some word) (List.replicate n 92++rest)=
    split quoted (slashes+n) (some word) rest := by
  induction n generalizing slashes with
  | zero => simp
  | succ n ih =>
    simp only [List.replicate_succ,List.cons_append,split_slash,Option.getD_some]
    rw [ih]
    congr 1
    omega

theorem split_quote_even (n : Nat) : split quoted (n*2) (some word) (34::rest)=
    split (!quoted) 0 (some (word++List.replicate n 92)) rest := by
  simp [split]

theorem split_quote_odd (n : Nat) : split quoted (n*2+1) (some word) (34::rest)=
    split quoted 0 (some (word++List.replicate n 92++[34])) rest := by
  have hhalf : (n*2+1)/2=n := by omega
  have hodd : (n*2+1)%2=1 := by omega
  simp [split,hhalf,hodd]

theorem split_other (hs : c ≠ 92) (hq : c ≠ 34) (hb : quoted=true ∨ isBlank c=false)
    (word : Option Bytes) : split quoted slashes word (c::rest)=
      split quoted 0 (some (held word slashes++[c])) rest := by
  have hblank : (!quoted && isBlank c)=false := by rcases hb with rfl | hb <;> simp [*]
  simp [split,hs,hq,hblank]

theorem isBlank_ne (h : isBlank c=true) : c ≠ 92 ∧ c ≠ 34 := by
  constructor <;> rintro rfl <;> exact absurd h (by decide)

theorem split_blank (h : isBlank c=true) : split false 0 none (c::rest)=split false 0 none rest := by
  simp [split,isBlank_ne h,h]

/-- At its end the word in hand is complete. -/
theorem split_ends (h : Ends rest) : split false slashes (some word) rest=
    (word++List.replicate slashes 92)::split false 0 none rest := by
  cases rest with
  | nil => simp [split]
  | cons c rest =>
    have hc : isBlank c=true := by simpa [Ends] using h
    rw [split_blank hc]
    simp [split,isBlank_ne hc,hc]

/-- Outside quotes a plain argument is taken as it stands. -/
theorem split_plain {a : Bytes} (ha : Plain a) (h : Ends rest) :
    split false slashes (some word) (a++rest)=
      (word++List.replicate slashes 92++a)::split false 0 none rest := by
  induction a generalizing slashes word with
  | nil => simp [split_ends h]
  | cons c a ih =>
    have hrest : Plain a := fun d hd => ha d (List.mem_cons_of_mem _ hd)
    obtain ⟨hq,hb⟩ := ha c List.mem_cons_self
    rw [List.cons_append]
    by_cases hs : c=92
    · subst hs
      rw [split_slash,ih hrest]
      simp [List.replicate_succ']
    · rw [split_other hs hq (.inr hb),ih hrest]
      simp

/-- The first byte of an argument opens its word. -/
theorem split_open {a : Bytes} (ha : Plain a) (hne : a ≠ []) :
    split false 0 none (a++rest)=split false 0 (some []) (a++rest) := by
  cases a with
  | nil => exact absurd rfl hne
  | cons c a =>
    obtain ⟨hq,hb⟩ := ha c List.mem_cons_self
    rw [List.cons_append]
    by_cases hs : c=92
    · subst hs
      simp
    · rw [split_other hs hq (.inr hb),split_other hs hq (.inr hb)]
      rfl

theorem splitProgram_word {a : Bytes} (hq : 34 ∉ a) (hb : quoted=true ∨ ∀ c ∈ a,isBlank c=false) :
    splitProgram quoted word (a++rest)=splitProgram quoted (word++a) rest := by
  induction a generalizing word with
  | nil => simp
  | cons c a ih =>
    obtain ⟨hc,hqrest⟩ := not_or.1 (List.mem_cons.not.1 hq)
    have hblank : (!quoted && isBlank c)=false := by
      rcases hb with rfl | hb
      · rfl
      · simp [hb c List.mem_cons_self]
    have hbrest : quoted=true ∨ ∀ d ∈ a,isBlank d=false :=
      hb.imp_right fun hb d hd => hb d (List.mem_cons_of_mem _ hd)
    rw [List.cons_append,splitProgram,if_neg (Ne.symm hc),hblank,if_neg Bool.false_ne_true,
      ih hqrest hbrest]
    simp

theorem splitProgram_ends (h : Ends rest) :
    splitProgram false word rest=word::split false 0 none rest := by
  cases rest with
  | nil => rfl
  | cons c rest =>
    have hc : isBlank c=true := by simpa [Ends] using h
    rw [split_blank hc]
    simp [splitProgram,isBlank_ne hc,hc]

theorem cString_of_not_mem {line : Bytes} (h : 0 ∉ line) : cString line=line :=
  List.takeWhile_eq_self_iff.2 fun _ hc => decide_eq_true fun hz => h (hz ▸ hc)

end CompilerFabric.Base.Argv
