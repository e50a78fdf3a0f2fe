import CompilerFabric.Core.Registry

namespace CompilerFabric

open Base

section Unique

variable {α : Type} [BEq α] [LawfulBEq α]

theorem mem_uniqueAfter (x : α) (l : List α) (y : α) : y ∈ uniqueAfter (· == ·) x l ↔ y ∈ x::l := by
  induction l generalizing x with
  | nil => simp [uniqueAfter]
  | cons z l ih =>
    rw [uniqueAfter]
    split_ifs with h
    · rw [ih,beq_iff_eq.1 h]
      simp
    · simp [ih]

theorem mem_uniqueBy (l : List α) (y : α) : y ∈ uniqueBy (· == ·) l ↔ y ∈ l := by
  cases l with
  | nil => rfl
  | cons x l => exact mem_uniqueAfter x l y

omit [LawfulBEq α] in
theorem uniqueAfter_length (x : α) (l : List α) : (uniqueAfter (· == ·) x l).length ≤ l.length+1 := by
  induction l generalizing x with
  | nil => simp [uniqueAfter]
  | cons z l ih =>
    have h₁ := ih x
    have h₂ := ih z
    rw [uniqueAfter]
    split_ifs
    · simp only [List.length_cons]
      omega
    · simp only [List.length_cons]
      omega

omit [LawfulBEq α] in
theorem uniqueBy_length (l : List α) : (uniqueBy (· == ·) l).length ≤ l.length := by
  cases l with
  | nil => simp [uniqueBy]
  | cons x l => exact uniqueAfter_length x l

end Unique

namespace EnvironmentSpec

theorem variableLe_iff (a b : EnvironmentVariable) : variableLe a b ↔
    toUpperAscii a.name<toUpperAscii b.name ∨
      toUpperAscii a.name=toUpperAscii b.name ∧ a.name ≤ b.name := by
  simp only [variableLe]
  split_ifs with h
  · simp [h]
  · have he : toUpperAscii a.name=toUpperAscii b.name := by simpa using h
    simp [he,List.lt_irrefl]

theorem variableLe_total (a b : EnvironmentVariable) : variableLe a b ∨ variableLe b a := by
  rw [variableLe_iff,variableLe_iff]
  by_cases h : toUpperAscii a.name<toUpperAscii b.name
  · exact .inl (.inl h)
  by_cases k : toUpperAscii b.name<toUpperAscii a.name
  · exact .inr (.inl k)
  have he := List.le_antisymm (List.not_lt.1 k) (List.not_lt.1 h)
  rcases List.le_total a.name b.name with hn | hn
  · exact .inl (.inr ⟨he,hn⟩)
  · exact .inr (.inr ⟨he.symm,hn⟩)

theorem variableLe_trans {a b c : EnvironmentVariable} (h : variableLe a b) (k : variableLe b c) :
    variableLe a c := by
  rw [variableLe_iff] at h k ⊢
  rcases h with h | ⟨h,hn⟩ <;> rcases k with k | ⟨k,kn⟩
  · exact .inl (List.lt_trans h k)
  · exact .inl (k ▸ h)
  · exact .inl (h ▸ k)
  · exact .inr ⟨h.trans k,List.le_trans hn kn⟩

/-- Variables in canonical order stay where they are. -/
theorem sort_sort (vs : List EnvironmentVariable) :
    (vs.insertionSort fun a b => variableLe a b).insertionSort (fun a b => variableLe a b)=
      vs.insertionSort fun a b => variableLe a b := by
  have : Std.Total fun a b : EnvironmentVariable => (variableLe a b : Prop) := ⟨variableLe_total⟩
  have : IsTrans EnvironmentVariable fun a b => (variableLe a b : Prop) :=
    ⟨fun _ _ _ => variableLe_trans⟩
  exact (List.pairwise_insertionSort _ _).insertionSort_eq

/-- What an accepted environment has been checked for, and what becomes of it. -/
structure Accepted (s t : EnvironmentSpec) : Prop where
  vars : s.vars.length ≤ 4096
  searchPaths : s.includePaths.length ≤ 1024 ∧ s.libraryPaths.length ≤ 1024 ∧
    s.sdkRoots.length ≤ 1024 ∧ s.toolkitRoots.length ≤ 1024
  inherited : s.inheritedVariables.length ≤ 256
  each : s.vars.forM checkVariable=.ok ()
  total : (s.vars.map (·.value.length)).sum ≤ 2^20
  distinct : (duplicateName (s.vars.insertionSort fun a b => variableLe a b)).isNone
  names : ∀ name ∈ uniqueBy (· == ·) (sortBytes s.inheritedVariables),name ≠ [] ∧ 61 ∉ name
  locale : ¬(s.localePolicy=.explicitName ∧ s.localeName=[])
  result : t={ s with
    vars := s.vars.insertionSort fun a b => variableLe a b
    inheritedVariables := uniqueBy (· == ·) (sortBytes s.inheritedVariables)
    workingDirectory := normalizeDirectory s.workingDirectory
    tempDirectory := normalizeDirectory s.tempDirectory
    includePaths := normalizeList s.includePaths
    libraryPaths := normalizeList s.libraryPaths
    sdkRoots := normalizeList s.sdkRoots
    toolkitRoots := normalizeList s.toolkitRoots }

theorem canonicalize_ok {s t : EnvironmentSpec} : s.canonicalize=.ok t ↔ s.Accepted t := by
  simp only [canonicalize,do_eq_ok,ensure_ok,pure,Except.pure,Except.ok.injEq]
  constructor
  · rintro ⟨_,h₁,_,h₂,_,h₃,_,h₄,_,h₅,_,h₆,_,h₇,_,h₈,rfl⟩
    exact ⟨h₁,h₂,h₃,h₄,h₅,h₆,h₇,h₈,rfl⟩
  · rintro ⟨h₁,h₂,h₃,h₄,h₅,h₆,h₇,h₈,rfl⟩
    exact ⟨(),h₁,(),h₂,(),h₃,(),h₄,(),h₅,(),h₆,(),h₇,(),h₈,rfl⟩

theorem mem_normalizeList (ps : List Bytes) (p : Bytes) :
    p ∈ normalizeList ps ↔ ∃ q ∈ ps,normalizePath q=p := by
  rw [normalizeList,mem_uniqueBy,List.mem_insertionSort,List.mem_map]

theorem normalizeList_length (ps : List Bytes) : (normalizeList ps).length ≤ ps.length := by
  have h := uniqueBy_length ((ps.map normalizePath).insertionSort
    fun a b => canonicalPathKey a ≤ canonicalPathKey b)
  rwa [List.length_insertionSort,List.length_map] at h

theorem mem_inherited (names : List Bytes) (name : Bytes) :
    name ∈ uniqueBy (· == ·) (sortBytes names) ↔ name ∈ names := by
  rw [mem_uniqueBy,sortBytes,List.mem_insertionSort]

theorem inherited_length (names : List Bytes) :
    (uniqueBy (· == ·) (sortBytes names)).length ≤ names.length := by
  have h := uniqueBy_length (sortBytes names)
  rwa [sortBytes,List.length_insertionSort] at h

theorem checkVariable_ok {v : EnvironmentVariable} (h : checkVariable v=.ok ()) :
    v.name.length ≤ 1024 ∧ v.value.length ≤ 32768 := by
  unfold checkVariable refuse at h
  split_ifs at h
  exact ⟨by omega,by omega⟩

/-- A canonical environment is accepted again. -/
theorem Accepted.again {s t : EnvironmentSpec} (h : s.Accepted t) : ∃ u,t.canonicalize=.ok u := by
  obtain ⟨hv,⟨hi,hl,hs,ht⟩,hn,he,htot,hd,hnames,hloc,rfl⟩ := h
  have hperm := List.perm_insertionSort (fun a b => variableLe a b) s.vars
  refine ⟨_,canonicalize_ok.2 ⟨?_,?_,?_,?_,?_,?_,?_,hloc,rfl⟩⟩
  · simpa using hv
  · exact ⟨(normalizeList_length _).trans hi,(normalizeList_length _).trans hl,
      (normalizeList_length _).trans hs,(normalizeList_length _).trans ht⟩
  · exact (inherited_length _).trans hn
  · rw [forM_ok] at he ⊢
    exact fun v hv => he v (hperm.mem_iff.1 hv)
  · have hsum := (hperm.map fun v : EnvironmentVariable => v.value.length).sum_nat
    simpa only [hsum] using htot
  · rwa [sort_sort]
  · intro name hname
    rw [mem_inherited] at hname
    exact hnames name hname

end EnvironmentSpec

end CompilerFabric
