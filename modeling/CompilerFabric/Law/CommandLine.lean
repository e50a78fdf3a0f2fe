import CompilerFabric.Base.Argv
import CompilerFabric.Runtime.Invocation

namespace CompilerFabric

open Base Base.Argv

/-! What the C runtime makes of a rendered command line. -/

section Quoting

variable {a rest : Bytes} {argv : List Bytes}

/-- The closing quote of a quoted argument gives the argument back, and what follows it is read
outside quotes. -/
theorem split_quoteBody (slashes : Nat) (word : Bytes) :
    split true 0 (some word) (quoteBody slashes a++34::rest)=
      split false 0 (some (word++List.replicate slashes 92++a)) rest := by
  induction a generalizing slashes word with
  | nil => rw [quoteBody,split_replicate,Nat.zero_add,split_quote_even,List.append_nil,Bool.not_true]
  | cons c a ih =>
    rw [quoteBody]
    by_cases hs : c=92
    · rw [if_pos hs,ih,hs]
      simp [List.replicate_succ']
    · rw [if_neg hs]
      by_cases hq : c=34
      · rw [if_pos hq,List.append_assoc,split_replicate,Nat.zero_add,List.cons_append,
          split_quote_odd,ih,hq]
        simp
      · rw [if_neg hq,List.append_assoc,split_replicate,Nat.zero_add,List.cons_append,
          split_other hs hq (.inl rfl),ih]
        simp

/-- An argument goes unquoted only where it means itself. -/
theorem quoteWindowsArgument_cases (a : Bytes) :
    quoteWindowsArgument a=34::(quoteBody 0 a++[34]) ∨
      quoteWindowsArgument a=a ∧ Plain a ∧ a ≠ [] := by
  unfold quoteWindowsArgument
  split_ifs with h
  · exact .inl rfl
  · refine .inr ⟨rfl,fun c hc => ?_,?_⟩
    · simp only [Bool.or_eq_true,List.any_eq_true,not_or,not_exists,not_and] at h
      have hne := h.2 c hc
      simp only [List.mem_cons,List.not_mem_nil,or_false,decide_eq_true_eq,not_or] at hne
      exact ⟨hne.2.2,by simp [isBlank,hne]⟩
    · rintro rfl
      exact h rfl

theorem split_quoteWindowsArgument (h : Ends rest) :
    split false 0 none (quoteWindowsArgument a++rest)=a::split false 0 none rest := by
  obtain he | ⟨he,hplain,hne⟩ := quoteWindowsArgument_cases a
  · have hopen : split false 0 none (34::(quoteBody 0 a++34::rest))=
        split true 0 (some []) (quoteBody 0 a++34::rest) := by simp [split,held]
    have hassoc : quoteWindowsArgument a++rest=34::(quoteBody 0 a++34::rest) := by simp [he]
    rw [hassoc,hopen,split_quoteBody,split_ends h]
    simp
  · rw [he,split_open hplain hne,split_plain hplain h]
    simp

/-- The arguments behind the first, each with the space in front of it. -/
def trailing (argv : List Bytes) : Bytes := argv.flatMap fun a => 32::quoteWindowsArgument a

theorem trailing_ends (argv : List Bytes) : Ends (trailing argv) := by
  cases argv <;> rfl

theorem renderCommandLine_cons (a : Bytes) (argv : List Bytes) :
    renderCommandLine (a::argv) .msvc=quoteWindowsArgument a++trailing argv := by
  induction argv generalizing a with
  | nil => simp [renderCommandLine,joinAscii,trailing]
  | cons b argv ih =>
    have hb := ih b
    simp only [renderCommandLine,joinAscii,List.map_cons,List.intercalate_cons_cons,if_pos] at hb ⊢
    rw [hb]
    simp [trailing]

theorem split_trailing (argv : List Bytes) : split false 0 none (trailing argv)=argv := by
  induction argv with
  | nil => rfl
  | cons a argv ih =>
    have hcons : trailing (a::argv)=32::(quoteWindowsArgument a++trailing argv) := rfl
    rw [hcons,split_blank rfl,split_quoteWindowsArgument (trailing_ends argv),ih]

/-- Without quotes, and without backslashes at its end, an argument stands in its quotes as it is. -/
theorem quoteBody_verbatim (hq : 34 ∉ a) (hlast : a.getLast? ≠ some 92) (hne : a ≠ []) (n : Nat) :
    quoteBody n a=List.replicate n 92++a := by
  induction a generalizing n with
  | nil => exact absurd rfl hne
  | cons c a ih =>
    obtain ⟨hc,hqrest⟩ := not_or.1 (List.mem_cons.not.1 hq)
    rw [quoteBody,if_neg (Ne.symm hc)]
    cases a with
    | nil =>
      have hs : c ≠ 92 := fun hs => hlast (by simp [hs])
      rw [if_neg hs]
      simp [quoteBody]
    | cons d a =>
      have hrest := ih hqrest (by simpa only [List.getLast?_cons_cons] using hlast) (by simp)
      by_cases hs : c=92
      · rw [if_pos hs,hrest,hs]
        simp [List.replicate_succ']
      · rw [if_neg hs,hrest]
        simp

theorem splitProgram_quoteWindowsArgument (hq : 34 ∉ a) (hlast : a.getLast? ≠ some 92)
    (h : Ends rest) : splitProgram false [] (quoteWindowsArgument a++rest)=
      a::split false 0 none rest := by
  obtain he | ⟨he,hplain,_⟩ := quoteWindowsArgument_cases a
  · have hbody : quoteBody 0 a=a := by
      by_cases hne : a=[]
      · rw [hne,quoteBody]
        rfl
      · rw [quoteBody_verbatim hq hlast hne]
        rfl
    have hquoted : splitProgram false [] (34::(a++34::rest))=splitProgram false a rest := by
      have hopen : splitProgram false [] (34::(a++34::rest))=
          splitProgram true [] (a++34::rest) := rfl
      rw [hopen,splitProgram_word hq (.inl rfl)]
      rfl
    rw [he,hbody]
    simp only [List.cons_append,List.append_assoc,List.nil_append]
    rw [hquoted,splitProgram_ends h]
  · rw [he,splitProgram_word hq (.inr fun c hc => (hplain c hc).2),List.nil_append,
      splitProgram_ends h]

theorem quoteBody_subset (n : Nat) : ∀ c ∈ quoteBody n a,c ∈ a ∨ c=92 := by
  induction a generalizing n with
  | nil => exact fun c hc => .inr (List.eq_of_mem_replicate hc)
  | cons d a ih =>
    intro c hc
    rw [quoteBody] at hc
    split_ifs at hc with hs hq
    · exact (ih _ c hc).imp_left (List.mem_cons_of_mem _)
    · rcases List.mem_append.1 hc with hc | hc
      · exact .inr (List.eq_of_mem_replicate hc)
      · rcases List.mem_cons.1 hc with rfl | hc
        · exact .inl (by simp [hq])
        · exact (ih _ c hc).imp_left (List.mem_cons_of_mem _)
    · rcases List.mem_append.1 hc with hc | hc
      · exact .inr (List.eq_of_mem_replicate hc)
      · rcases List.mem_cons.1 hc with rfl | hc
        · exact .inl List.mem_cons_self
        · exact (ih _ c hc).imp_left (List.mem_cons_of_mem _)

theorem quoteWindowsArgument_noNul (h : 0 ∉ a) : 0 ∉ quoteWindowsArgument a := by
  obtain he | ⟨he,_⟩ := quoteWindowsArgument_cases a
  · rw [he]
    simp only [List.mem_cons,List.mem_append,List.not_mem_nil,or_false]
    rintro (h0 | h0 | h0)
    · exact absurd h0 (by decide)
    · rcases quoteBody_subset 0 0 h0 with h0 | h0
      · exact h h0
      · exact absurd h0 (by decide)
    · exact absurd h0 (by decide)
  · rwa [he]

theorem renderCommandLine_noNul (h : ∀ a ∈ argv,0 ∉ a) : 0 ∉ renderCommandLine argv .msvc := by
  cases argv with
  | nil => exact List.not_mem_nil
  | cons a argv =>
    rw [renderCommandLine_cons]
    intro h0
    rcases List.mem_append.1 h0 with h0 | h0
    · exact quoteWindowsArgument_noNul (h a List.mem_cons_self) h0
    · obtain ⟨b,hb,h0⟩ := List.mem_flatMap.1 h0
      rcases List.mem_cons.1 h0 with h0 | h0
      · exact absurd h0 (by decide)
      · exact quoteWindowsArgument_noNul (h b (List.mem_cons_of_mem _ hb)) h0

end Quoting

/-- A rendered command line is read back as the arguments it was rendered from: with the rules for
arguments throughout, and with the simpler ones for the name of the program in front. -/
theorem renderCommandLine_parsed (argv : List Bytes)
    (hprogram : ∀ program ∈ argv.head?,34 ∉ program ∧ program.getLast? ≠ some 92)
    (hnul : ∀ a ∈ argv,0 ∉ a) :
    arguments (renderCommandLine argv .msvc)=argv ∧
      (argv ≠ [] → commandLine (renderCommandLine argv .msvc)=argv) := by
  have hc := cString_of_not_mem (renderCommandLine_noNul hnul)
  unfold arguments commandLine
  rw [hc]
  cases argv with
  | nil => exact ⟨rfl,fun h => absurd rfl h⟩
  | cons program argv =>
    obtain ⟨hq,hlast⟩ := hprogram program rfl
    have hends := trailing_ends argv
    rw [renderCommandLine_cons]
    constructor
    · rw [split_quoteWindowsArgument hends,split_trailing]
    · intro
      rw [splitProgram_quoteWindowsArgument hq hlast hends,split_trailing]

/-- A path with a space, an empty argument, and backslashes in front of a quote and at the end. -/
theorem renderCommandLine_parsed_mixed :
    let argv := [ascii "C:\\a b\\cl.exe",[],ascii "/D\\\"x\\\\\" y\\"]
    arguments (renderCommandLine argv .msvc)=argv ∧
      (argv ≠ [] → commandLine (renderCommandLine argv .msvc)=argv) :=
  renderCommandLine_parsed _ (by decide) (by decide)

/-! How long it is. -/

def ProcessSpec.renderCommandLine (spec : ProcessSpec) : Bytes :=
  CompilerFabric.renderCommandLine (spec.executable::spec.arguments) .msvc

/-- A byte that quoting puts a backslash in front of, with what follows it: a quote, or one of the
backslashes in front of a quote or of the end. -/
def escaped (tail : Bytes) : Bool :=
  tail.head?.any (· = 34) ||
    (tail.head?.any (· = 92) && (tail.dropWhile (· = 92)).head?.all (· = 34))

def escapes (a : Bytes) : Nat := a.tails.countP escaped

/-- What quoting adds to an argument: two quotes and the backslashes, if it is quoted at all. -/
def overhead (a : Bytes) : Nat :=
  if a.isEmpty || a.any (· ∈ [32,9,34]) then 2+escapes a else 0

section Ceiling

variable {a : Bytes}

theorem escapes_cons (c : UInt8) (a : Bytes) :
    escapes (c::a)=escapes a+if escaped (c::a) then 1 else 0 := by
  simp [escapes,List.countP_cons]

/-- Backslashes are escaped all of them or none, by what stands behind them. -/
theorem escapes_replicate (n : Nat) (h : a.head? ≠ some 92) :
    escapes (List.replicate n 92++a)=escapes a+if a.head?.all (· = 34) then n else 0 := by
  induction n with
  | zero => simp
  | succ n ih =>
    have hdrop : (92::(List.replicate n 92++a)).dropWhile (· = 92)=a := by
      cases a with
      | nil => simp
      | cons c a =>
        have hc : c ≠ 92 := fun hc => h (by simp [hc])
        rw [← List.cons_append,← List.replicate_succ,List.dropWhile_append_of_pos (by simp)]
        simp [hc]
    have he : escaped (92::(List.replicate n 92++a))=a.head?.all (· = 34) := by
      unfold escaped
      rw [hdrop]
      simp
    rw [List.replicate_succ,List.cons_append,escapes_cons,ih,he]
    split_ifs <;> omega

theorem quoteBody_length (n : Nat) (a : Bytes) :
    (quoteBody n a).length=n+a.length+escapes (List.replicate n 92++a) := by
  induction a generalizing n with
  | nil =>
    have hn := @escapes_replicate [] n (by simp)
    have h0 : escapes []=0 := rfl
    simp only [List.head?_nil,Option.all_none,if_true,h0] at hn
    rw [hn,quoteBody]
    simp
    omega
  | cons c a ih =>
    rw [quoteBody]
    by_cases hs : c=92
    · have hrun : List.replicate n (92 : UInt8)++92::a=List.replicate (n+1) 92++a := by
        simp [List.replicate_succ']
      rw [if_pos hs,ih,hs,hrun,List.length_cons]
      omega
    · have h0 := ih 0
      rw [if_neg hs,escapes_replicate n (by simpa using hs),escapes_cons]
      simp only [List.replicate_zero,List.nil_append,Nat.zero_add] at h0
      by_cases hq : c=34
      · have he : escaped (c::a)=true := by simp [escaped,hq]
        rw [if_pos hq,List.length_append,List.length_replicate,List.length_cons,h0,he]
        simp [hq]
        omega
      · have he : escaped (c::a)=false := by simp [escaped,hs,hq]
        rw [if_neg hq,List.length_append,List.length_replicate,List.length_cons,h0,he]
        simp [hq]
        omega

theorem quoteWindowsArgument_length (a : Bytes) :
    (quoteWindowsArgument a).length=a.length+overhead a := by
  have hbody := quoteBody_length 0 a
  unfold quoteWindowsArgument overhead
  split_ifs
  · simp only [List.replicate_zero,List.nil_append] at hbody
    simp only [List.length_cons,List.length_append,hbody,List.length_nil]
    omega
  · rfl

theorem trailing_length (argv : List Bytes) :
    (trailing argv).length=(argv.map List.length).sum+argv.length+(argv.map overhead).sum := by
  induction argv with
  | nil => rfl
  | cons a argv ih =>
    have hcons : trailing (a::argv)=32::(quoteWindowsArgument a++trailing argv) := rfl
    simp only [hcons,List.length_cons,List.length_append,quoteWindowsArgument_length,ih,
      List.map_cons,List.sum_cons]
    omega

/-- The bytes that `validate` counts. -/
def ProcessSpec.rawBytes (spec : ProcessSpec) : Nat :=
  spec.executable.length+(spec.arguments.map List.length).sum+spec.arguments.length

theorem ProcessSpec.renderCommandLine_length (spec : ProcessSpec) : spec.renderCommandLine.length=
    spec.rawBytes+((spec.executable::spec.arguments).map overhead).sum := by
  unfold ProcessSpec.renderCommandLine ProcessSpec.rawBytes
  rw [renderCommandLine_cons,List.length_append,quoteWindowsArgument_length,trailing_length,
    List.map_cons,List.sum_cons]
  omega

theorem ProcessSpec.validate_ok {host : Host} {spec : ProcessSpec} :
    spec.validate host=.ok () ↔ (¬spec.executable.isEmpty ∧ isAbsolutePath spec.executable ∧
      ¬spec.executable.contains 0 ∧ normalizePath spec.executable=spec.executable) ∧
      spec.arguments.length ≤ kMaxArguments ∧
      (∀ a ∈ spec.arguments,a.length ≤ kMaxArgumentBytes ∧ ¬a.contains 0) ∧
      spec.rawBytes ≤ kMaxCommandLineBytes ∧
      (spec.workingDirectory.isEmpty ∨ isAbsolutePath spec.workingDirectory) ∧
      (spec.workingDirectory.isEmpty ∨
        host.files (canonicalPathKey spec.workingDirectory)=some .directory) ∧
      ¬spec.environment.any (·.misnamed) ∧ environmentBytes spec.environment ≤ kMaxEnvironmentBytes ∧
      spec.maxCaptureBytes ≠ 0 ∧ spec.maxCaptureBytes ≤ kMaxCaptureBytes := by
  simp only [ProcessSpec.validate,check_ok,ensure_ok,forM_ok,checkArgument,ProcessSpec.rawBytes]
  tauto

end Ceiling

/-- The rendered command line of an accepted process keeps to the ceiling exactly when what
quoting adds fits into what the bytes counted leave of it. -/
theorem ProcessSpec.rendered_fits_iff (host : Host) (spec : ProcessSpec)
    (h : spec.validate host=.ok ()) : spec.renderCommandLine.length ≤ kMaxCommandLineBytes ↔
      ((spec.executable::spec.arguments).map overhead).sum ≤ kMaxCommandLineBytes-spec.rawBytes := by
  have hraw := (ProcessSpec.validate_ok.1 h).2.2.2.1
  rw [spec.renderCommandLine_length]
  omega

theorem ProcessSpec.rendered_fits_iff_quoted :
    let spec : ProcessSpec := {
      executable := ascii "C:\\Program Files\\cl.exe"
      arguments := ["/c","/DNAME=\"a b\"","C:\\my src\\",""].map ascii }
    spec.validate {}=.ok () ∧ (spec.renderCommandLine.length ≤ kMaxCommandLineBytes ↔
      ((spec.executable::spec.arguments).map overhead).sum ≤ kMaxCommandLineBytes-spec.rawBytes) :=
  have h : ProcessSpec.validate {} {
      executable := ascii "C:\\Program Files\\cl.exe"
      arguments := ["/c","/DNAME=\"a b\"","C:\\my src\\",""].map ascii }=.ok () := by decide +kernel
  ⟨h,ProcessSpec.rendered_fits_iff {} _ h⟩

/-- A process with arguments that are quotes only. -/
def ProcessSpec.ofQuotes (m n : Nat) : ProcessSpec :=
  { executable := ascii "C:\\cl.exe"
    arguments := List.replicate m (List.replicate n 34) }

section OfQuotes

variable {m n : Nat}

theorem escapes_quotes (n : Nat) : escapes (List.replicate n 34)=n := by
  induction n with
  | zero => rfl
  | succ n ih =>
    have he : escaped (34::List.replicate n 34)=true := by simp [escaped]
    rw [List.replicate_succ,escapes_cons,ih,he]
    rfl

theorem overhead_quotes (hn : n ≠ 0) : overhead (List.replicate n 34)=n+2 := by
  have hquoted : (List.replicate n (34 : UInt8)).any (· ∈ [32,9,34])=true := by simp [hn]
  unfold overhead
  rw [hquoted,Bool.or_true,if_pos rfl,escapes_quotes]
  omega

theorem ProcessSpec.ofQuotes_rawBytes (m n : Nat) : (ofQuotes m n).rawBytes=9+m*n+m := by
  have hexe : (ascii "C:\\cl.exe").length=9 := by decide
  simp [rawBytes,ofQuotes,hexe]

theorem ProcessSpec.ofQuotes_validate (host : Host) (hm : m ≤ kMaxArguments)
    (hn : n ≤ kMaxArgumentBytes) (hraw : 9+m*n+m ≤ kMaxCommandLineBytes) :
    (ofQuotes m n).validate host=.ok () := by
  have hexe : let p := ascii "C:\\cl.exe"
      ¬p.isEmpty ∧ isAbsolutePath p ∧ ¬p.contains 0 ∧ normalizePath p=p := by decide +kernel
  have hcapture : kDefaultCaptureBytes ≠ 0 ∧ kDefaultCaptureBytes ≤ kMaxCaptureBytes := by decide
  refine validate_ok.2 ⟨hexe,?_,?_,?_,.inl rfl,.inl rfl,by simp [ofQuotes],Nat.zero_le _,hcapture⟩
  · simpa [ofQuotes] using hm
  · intro a ha
    have ha := List.eq_of_mem_replicate ha
    subst ha
    exact ⟨by simpa using hn,by simp⟩
  · rwa [ofQuotes_rawBytes]

theorem ProcessSpec.ofQuotes_length (hn : n ≠ 0) :
    (ofQuotes m n).renderCommandLine.length=9+m*n+m+m*(n+2) := by
  have hexe : overhead (ascii "C:\\cl.exe")=0 := by decide
  rw [renderCommandLine_length,ofQuotes_rawBytes]
  simp [ofQuotes,hexe,overhead_quotes hn]

end OfQuotes

/-- Sixteen arguments of one mebibyte of quotes are accepted and rendered beyond the ceiling. -/
theorem ProcessSpec.not_rendered_fits :
    (ProcessSpec.ofQuotes 16 1048576).validate {}=.ok () ∧
      ¬(ProcessSpec.ofQuotes 16 1048576).renderCommandLine.length ≤ kMaxCommandLineBytes := by
  constructor
  · exact ProcessSpec.ofQuotes_validate {} (by decide) (by decide) (by decide)
  · rw [ProcessSpec.ofQuotes_length (by decide)]
    decide

end CompilerFabric
