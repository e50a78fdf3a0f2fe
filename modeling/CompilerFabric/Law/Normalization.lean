import CompilerFabric.Core.Diagnostics

namespace CompilerFabric

open DiagnosticSet (kMaxMessageBytes)

/-- The lines of an output that say something, without their trailing carriage return. -/
def spokenLines (output : Bytes) : List Bytes :=
  ((output.splitOn 10).map withoutReturn).filter fun line => !(trimAscii line).isEmpty

section Lines

variable {output : Bytes}

theorem splitOn_of_mem (h : (10 : UInt8) ∈ output) : output.splitOn 10=
    output.take (output.idxOf 10)::(output.drop (output.idxOf 10+1)).splitOn 10 := by
  induction output with
  | nil => cases h
  | cons c output ih =>
    rw [List.splitOn,List.splitOnP_cons_eq_if_modifyHead]
    by_cases hc : c=10
    · subst hc
      simp [List.splitOn]
    · have hm : (10 : UInt8) ∈ output := (List.mem_cons.1 h).resolve_left (Ne.symm hc)
      rw [if_neg (by simpa using hc),← List.splitOn,ih hm,List.idxOf_cons_ne _ hc]
      rfl

theorem splitOn_of_not_mem (h : (10 : UInt8) ∉ output) : output.splitOn 10=[output] := by
  rw [List.splitOn,List.splitOnP_eq_singleton]
  intro c hc
  simpa using ne_of_mem_of_not_mem hc h

/-- The lines of an output are its first one and, where a newline ends it, those behind. -/
theorem spokenLines_first (output : Bytes) : spokenLines output=
    [withoutReturn (output.take (output.idxOf 10))].filter (fun line => !(trimAscii line).isEmpty)++
      if output.idxOf 10<output.length then spokenLines (output.drop (output.idxOf 10+1)) else [] := by
  by_cases h : (10 : UInt8) ∈ output
  · rw [if_pos (List.idxOf_lt_length_of_mem h),spokenLines,splitOn_of_mem h,List.map_cons,
      ← List.singleton_append,List.filter_append]
    rfl
  · rw [List.idxOf_eq_length h,if_neg (Nat.lt_irrefl _),List.take_length,List.append_nil,spokenLines,
      splitOn_of_not_mem h]
    rfl

/-- The loop reads each line of the rest of the output that says something. -/
theorem readLines_eq (read : Bytes → Diagnostic) (start : Nat) (h : start ≤ output.length) :
    readLines read output start=
      (spokenLines (output.drop start)).map fun line => read (line.take kMaxMessageBytes) := by
  induction hn : output.length-start using Nat.strong_induction_on generalizing start with
  | _ n ih =>
    subst hn
    have hl : (output.drop start).length=output.length-start := List.length_drop
    -- The loop goes on behind the newline, or one past the end and stops.
    have hrest : readLines read output (start+(output.drop start).idxOf 10+1)=
        (if (output.drop start).idxOf 10<(output.drop start).length then
          spokenLines ((output.drop start).drop ((output.drop start).idxOf 10+1)) else []).map
            fun line => read (line.take kMaxMessageBytes) := by
      split_ifs with hlt
      · rw [List.drop_drop,← Nat.add_assoc]
        exact ih _ (by omega) _ (by omega) rfl
      · rw [readLines,if_neg (by omega)]
        rfl
    rw [readLines,if_pos h,spokenLines_first,List.map_append,← hrest]
    dsimp only
    rw [Nat.add_sub_cancel_left]
    split_ifs with hblank
    · rw [List.filter_cons_of_neg (by simpa using hblank)]
      rfl
    · rw [List.filter_cons_of_pos (by simpa using hblank)]
      rfl

theorem normalized_raws {read : Bytes → Diagnostic} (h : ∀ line,(read line).raw=line) (output : Bytes) :
    (readLines read output 0).map (·.raw)=(spokenLines output).map (·.take kMaxMessageBytes) := by
  rw [readLines_eq read 0 (Nat.zero_le _),List.map_map,List.drop_zero]
  exact List.map_congr_left fun line _ => h _

theorem parseLocation_raw (text : Bytes) (out : Diagnostic) : (parseLocation text out).2.raw=out.raw := by
  unfold parseLocation
  dsimp only
  split_ifs
  · rfl
  · split <;> rfl
  · split <;> rfl

theorem parseLine_raw (dialect : Dialect) (origin line : Bytes) :
    (parseLine dialect origin line).raw=line := by
  unfold parseLine
  split
  · rfl
  · exact parseLocation_raw _ _

/-- No line is lost. -/
theorem normalize_raws (output origin : Bytes) :
    (normalizeMsvcOutput output origin).map (·.raw)=(spokenLines output).map (·.take kMaxMessageBytes) ∧
    (normalizeNvccOutput output origin).map (·.raw)=(spokenLines output).map (·.take kMaxMessageBytes) ∧
    (normalizeGenericOutput output origin).map (·.raw)=
      (spokenLines output).map (·.take kMaxMessageBytes) :=
  ⟨normalized_raws (parseLine_raw .msvc origin) output,normalized_raws (parseLine_raw .nvcc origin) output,
    normalized_raws (fun _ => rfl) output⟩

end Lines

end CompilerFabric
