import CompilerFabric.Base.Collapse
import CompilerFabric.Core.Environment
import CompilerFabric.Core.Folding
import CompilerFabric.Core.Normal
import Mathlib.Algebra.Order.BigOperators.Group.List
import Mathlib.Algebra.Order.Group.Nat
import Mathlib.Data.List.Flatten

namespace CompilerFabric

open Base

instance : Std.Total fun a b : Bytes => a ≤ b := ⟨List.le_total⟩

instance : IsTrans Bytes fun a b => a ≤ b := ⟨fun _ _ _ => List.le_trans⟩

instance : Std.Antisymm fun a b : Bytes => a ≤ b := ⟨fun _ _ => List.le_antisymm⟩

/-- `std::unique` on equal neighbours. -/
theorem uniqueBy_eq {α : Type} [BEq α] [LawfulBEq α] [DecidableEq α] (l : List α) :
    uniqueBy (· == ·) l=l.destutter (· ≠ ·) := by
  have hafter : ∀ (l : List α) (x : α),uniqueAfter (· == ·) x l=(x::l).destutter (· ≠ ·) := by
    intro l
    induction l with
    | nil => exact fun x => rfl
    | cons y l ih =>
      intro x
      rw [uniqueAfter,destutter_cons_cons_eq,ih,ih]
      by_cases h : x=y
      · subst h
        simp
      · simp [h]
  cases l with
  | nil => rfl
  | cons x l => exact hafter l x

namespace EnvironmentSpec

/-- The bytes that `canonical_digest` hashes. -/
def canonicalBytes (s : EnvironmentSpec) : Bytes :=
  let paths (ps : List Bytes) := ps.flatMap fun p => canonicalText (canonicalPathKey p)
  canonicalText (canonicalPathKey s.workingDirectory)++
    canonicalText (canonicalPathKey s.tempDirectory)++
    (s.vars.flatMap fun v => canonicalText (toUpperAscii v.name)++canonicalText v.value)++
    paths s.includePaths++paths s.libraryPaths++paths s.sdkRoots++paths s.toolkitRoots++
    (s.inheritedVariables.flatMap fun name => canonicalText (toUpperAscii name))++
    canonicalText (ascii s.localePolicy.text)++canonicalText s.localeName++
    canonicalBool s.deterministicControls

theorem canonicalDigest_eq (s : EnvironmentSpec) : s.canonicalDigest=.of s.canonicalBytes := rfl

theorem normalizeList_eq (ps : List Bytes) : normalizeList ps=
    collapse canonicalPathKey (fun a b => a ≤ b) (ps.map normalizePath) := by
  rw [normalizeList,uniqueBy_eq]
  rfl

theorem inherited_eq (names : List Bytes) : uniqueBy (· == ·) (sortBytes names)=
    collapse id (fun a b : Bytes => a ≤ b) names := by
  rw [uniqueBy_eq]
  rfl

theorem normalizeDirectory_eq (path : Bytes) : normalizeDirectory path=normalizePath path := by
  cases path with
  | nil => rfl
  | cons c path => rfl

section Variables

variable {vs ws : List EnvironmentVariable}

/-- In canonical order without a duplicate, names rise strictly. -/
theorem rising_of_distinct (hs : vs.Pairwise fun a b => variableLe a b)
    (h : (duplicateName vs).isNone) :
    vs.Pairwise fun a b => toUpperAscii a.name<toUpperAscii b.name := by
  have : Trans (fun a b : EnvironmentVariable => toUpperAscii a.name<toUpperAscii b.name)
      (fun a b : EnvironmentVariable => toUpperAscii a.name<toUpperAscii b.name)
      (fun a b : EnvironmentVariable => toUpperAscii a.name<toUpperAscii b.name) := ⟨List.lt_trans⟩
  refine List.IsChain.pairwise ?_
  induction vs with
  | nil => exact .nil
  | cons a vs ih =>
    cases vs with
    | nil => exact .singleton a
    | cons b vs =>
      rw [duplicateName] at h
      split_ifs at h with heq
      · exact absurd h (by simp)
      · refine .cons_cons ?_ (ih (List.pairwise_cons.1 hs).2 h)
        have hab := (List.pairwise_cons.1 hs).1 b List.mem_cons_self
        rcases (variableLe_iff a b).1 hab with hlt | ⟨hup,_⟩
        · exact hlt
        · refine absurd ?_ heq
          rw [equalsAsciiCi,beq_iff_eq]
          exact toLowerAscii_of_upper hup

/-- Variables with different names have one canonical order. -/
theorem sort_perm (hp : ws.Perm vs)
    (h : (duplicateName (vs.insertionSort fun a b => variableLe a b)).isNone) :
    ws.insertionSort (fun a b => variableLe a b)=vs.insertionSort fun a b => variableLe a b := by
  have : Std.Total fun a b : EnvironmentVariable => (variableLe a b : Prop) := ⟨variableLe_total⟩
  have : IsTrans EnvironmentVariable fun a b => (variableLe a b : Prop) :=
    ⟨fun _ _ _ => variableLe_trans⟩
  have hs := List.pairwise_insertionSort (fun a b => (variableLe a b : Prop)) vs
  have hs' := List.pairwise_insertionSort (fun a b => (variableLe a b : Prop)) ws
  have hperm : (ws.insertionSort fun a b => variableLe a b).Perm
      (vs.insertionSort fun a b => variableLe a b) :=
    (List.perm_insertionSort _ ws).trans (hp.trans (List.perm_insertionSort _ vs).symm)
  have hrising := rising_of_distinct hs h
  refine hperm.eq_of_pairwise (fun a b ha hb hab hba => ?_) hs' hs
  have hup : toUpperAscii a.name=toUpperAscii b.name := by
    rcases (variableLe_iff a b).1 hab with hlt | ⟨hup,_⟩
    · rcases (variableLe_iff b a).1 hba with hlt' | ⟨hup',_⟩
      · exact absurd (List.lt_trans hlt hlt') (List.lt_irrefl _)
      · exact hup'.symm
    · exact hup
  by_contra hne
  have hapart : (vs.insertionSort fun a b => variableLe a b).Pairwise fun a b =>
      toUpperAscii a.name ≠ toUpperAscii b.name := by
    refine hrising.imp ?_
    intro a b hlt he
    rw [he] at hlt
    exact List.lt_irrefl _ hlt
  have : Std.Symm fun a b : EnvironmentVariable => toUpperAscii a.name ≠ toUpperAscii b.name :=
    ⟨fun _ _ h he => h he.symm⟩
  exact hapart.forall (hperm.mem_iff.1 ha) hb hne hup

end Variables

section Paths

variable {ps qs : List Bytes}

/-- Paths whose spellings no order can tell apart. -/
def SettledPaths (ps : List Bytes) : Prop := Settled canonicalPathKey (ps.map normalizePath)

/-- A path that is the same normalized twice. -/
def Stable (path : Bytes) : Prop := normalizePath (normalizePath path)=normalizePath path

/-- The keys of a list of paths, as they are hashed. -/
def keys (ps : List Bytes) : List Bytes := (normalizeList ps).map canonicalPathKey

theorem SettledPaths.keys_perm (h : SettledPaths ps) (hp : qs.Perm ps) : keys qs=keys ps := by
  rw [keys,keys,normalizeList_eq,normalizeList_eq]
  exact Settled.map_collapse h (hp.map normalizePath)

/-- The length of the encoding of a list of paths. -/
def weight (ps : List Bytes) : Nat := ((keys ps).flatMap canonicalText).length

theorem canonicalText_length (text : Bytes) : (canonicalText text).length=4+text.length := by
  simp [canonicalText,leBytes_length]

/-- Two orders of unsettled paths are encoded at different lengths. -/
theorem exists_lighter (h : ¬SettledPaths ps) :
    ∃ qs rs : List Bytes,qs.Perm ps ∧ rs.Perm ps ∧ weight qs<weight rs := by
  obtain ⟨ns,ms,a,rest,hns,hms,hshort,hlong⟩ := exists_longer (r := fun a b : Bytes => a ≤ b) h
  obtain ⟨qs,hqs,rfl⟩ := exists_perm_map hns
  obtain ⟨rs,hrs,rfl⟩ := exists_perm_map hms
  refine ⟨qs,rs,hqs,hrs,?_⟩
  have hq := (hshort.map canonicalPathKey).flatMap canonicalText
  have hr := (hlong.map canonicalPathKey).flatMap_right canonicalText
  have hqlen := hq.length_le
  have hrlen := hr.length_eq
  rw [weight,weight,keys,keys,normalizeList_eq,normalizeList_eq]
  rw [List.map_cons,List.flatMap_cons,List.length_append,canonicalText_length] at hrlen
  omega

theorem eq_of_sum_eq {f g : Bytes → Nat} (h : ∀ p ∈ ps,f p ≤ g p)
    (hsum : (ps.map f).sum=(ps.map g).sum) : ∀ p ∈ ps,f p=g p := by
  induction ps with
  | nil => exact fun p hp => absurd hp List.not_mem_nil
  | cons q ps ih =>
    have hq := h q List.mem_cons_self
    have hrest : ∀ p ∈ ps,f p ≤ g p := fun p hp => h p (List.mem_cons_of_mem _ hp)
    have hle := List.sum_le_sum hrest
    rw [List.map_cons,List.map_cons,List.sum_cons,List.sum_cons] at hsum
    intro p hp
    rcases List.mem_cons.1 hp with rfl | hp
    · omega
    · exact ih hrest (by omega) p hp

/-- Normalizing a normalized list again changes nothing exactly when it changes no path. -/
theorem normalizeList_again_iff :
    normalizeList (normalizeList ps)=normalizeList ps ↔ ∀ p ∈ ps,Stable p := by
  have hmem : ∀ p,p ∈ normalizeList ps ↔ ∃ q ∈ ps,normalizePath q=p := mem_normalizeList ps
  constructor
  · intro h
    have hfix : ∀ n ∈ normalizeList ps,normalizePath n=n := by
      have hle : ∀ n ∈ normalizeList ps,(normalizePath n).length ≤ n.length ∧
          ((normalizePath n).length=n.length → normalizePath n=n) := by
        intro n hn
        obtain ⟨q,_,rfl⟩ := (hmem n).1 hn
        exact normalizePath_again q
      have hsub : (normalizeList ps).Sublist (((normalizeList ps).map normalizePath).insertionSort
          fun a b => canonicalPathKey a ≤ canonicalPathKey b) := by
        have hd := List.destutter_sublist (· ≠ ·) (((normalizeList ps).map normalizePath).insertionSort
          fun a b => canonicalPathKey a ≤ canonicalPathKey b)
        rwa [← uniqueBy_eq,← normalizeList,h] at hd
      have hperm : (normalizeList ps).Perm ((normalizeList ps).map normalizePath) := by
        have heq := hsub.eq_of_length (by simp)
        have hsort := List.perm_insertionSort (fun a b => canonicalPathKey a ≤ canonicalPathKey b)
          ((normalizeList ps).map normalizePath)
        rwa [← heq] at hsort
      have hsum := (hperm.map List.length).sum_nat
      rw [List.map_map] at hsum
      exact fun n hn => (hle n hn).2 (eq_of_sum_eq (fun m hm => (hle m hm).1) hsum.symm n hn)
    intro p hp
    exact hfix _ ((hmem _).2 ⟨p,hp,rfl⟩)
  · intro h
    have hmap : (normalizeList ps).map normalizePath=normalizeList ps := by
      refine (List.map_congr_left fun n hn => ?_).trans (List.map_id _)
      obtain ⟨q,hq,rfl⟩ := (hmem n).1 hn
      exact h q hq
    rw [normalizeList_eq (normalizeList ps),hmap,normalizeList_eq,collapse_collapse]

end Paths

variable {s t : EnvironmentSpec}

/-- The four search lists. -/
def searchLists (s : EnvironmentSpec) : List (List Bytes) :=
  [s.includePaths,s.libraryPaths,s.sdkRoots,s.toolkitRoots]

/-- The same variables, names and paths in another order. -/
structure Rearranges (s s' : EnvironmentSpec) : Prop where
  vars : s'.vars.Perm s.vars
  inheritedVariables : s'.inheritedVariables.Perm s.inheritedVariables
  includePaths : s'.includePaths.Perm s.includePaths
  libraryPaths : s'.libraryPaths.Perm s.libraryPaths
  sdkRoots : s'.sdkRoots.Perm s.sdkRoots
  toolkitRoots : s'.toolkitRoots.Perm s.toolkitRoots
  rest : s'={ s with
    vars := s'.vars
    inheritedVariables := s'.inheritedVariables
    includePaths := s'.includePaths
    libraryPaths := s'.libraryPaths
    sdkRoots := s'.sdkRoots
    toolkitRoots := s'.toolkitRoots }

/-- What a specification is accepted for does not depend on the order. -/
theorem Rearranges.accepted {s' : EnvironmentSpec} (hr : s.Rearranges s') (h : s.Accepted t) :
    ∃ t',s'.Accepted t' := by
  obtain ⟨hv,⟨hi,hl,hs,ht⟩,hn,he,htot,hd,hnames,hloc,_⟩ := h
  have hrest := hr.rest
  refine ⟨_,?_,?_,?_,?_,?_,?_,?_,?_,rfl⟩
  · rwa [hr.vars.length_eq]
  · rw [hr.includePaths.length_eq,hr.libraryPaths.length_eq,hr.sdkRoots.length_eq,
      hr.toolkitRoots.length_eq]
    exact ⟨hi,hl,hs,ht⟩
  · rwa [hr.inheritedVariables.length_eq]
  · rw [forM_ok] at he ⊢
    exact fun v hm => he v (hr.vars.mem_iff.1 hm)
  · have hsum := (hr.vars.map fun v : EnvironmentVariable => v.value.length).sum_nat
    rwa [hsum]
  · rwa [sort_perm hr.vars hd]
  · intro name hm
    rw [mem_inherited,hr.inheritedVariables.mem_iff,← mem_inherited] at hm
    exact hnames name hm
  · rw [hrest]
    exact hloc

/-- Canonicalizing once more changes nothing exactly when it changes no path. -/
theorem Accepted.again_iff (h : s.Accepted t) : t.canonicalize=.ok t ↔
    Stable s.workingDirectory ∧ Stable s.tempDirectory ∧
      ∀ l ∈ s.searchLists,∀ p ∈ l,Stable p := by
  obtain ⟨u,hu⟩ := h.again
  have hiff : t.canonicalize=.ok t ↔ u=t := by
    rw [hu]
    exact ⟨Except.ok.inj,congrArg Except.ok⟩
  rw [hiff,(canonicalize_ok.1 hu).result,h.result]
  have hnames : uniqueBy (· == ·) (sortBytes (uniqueBy (· == ·) (sortBytes s.inheritedVariables)))=
      uniqueBy (· == ·) (sortBytes s.inheritedVariables) := by
    rw [inherited_eq,inherited_eq,collapse_collapse]
  simp only [sort_sort,hnames,normalizeDirectory_eq,EnvironmentSpec.mk.injEq,true_and,and_true,
    normalizeList_again_iff,searchLists,List.forall_mem_cons,List.not_mem_nil,false_implies,implies_true,
    Stable]

/-- The encoding, but for the search lists. -/
def restBytes (s : EnvironmentSpec) : Bytes :=
  canonicalText (canonicalPathKey s.workingDirectory)++
    canonicalText (canonicalPathKey s.tempDirectory)++
    (s.vars.flatMap fun v => canonicalText (toUpperAscii v.name)++canonicalText v.value)++
    (s.inheritedVariables.flatMap fun name => canonicalText (toUpperAscii name))++
    canonicalText (ascii s.localePolicy.text)++canonicalText s.localeName++
    canonicalBool s.deterministicControls

theorem Accepted.canonicalBytes_length (h : s.Accepted t) : t.canonicalBytes.length=
    t.restBytes.length+(s.searchLists.map weight).sum := by
  have hpaths : ∀ ps : List Bytes,((normalizeList ps).flatMap fun p =>
      canonicalText (canonicalPathKey p)).length=weight ps := by
    intro ps
    rw [weight,keys,List.flatMap_map]
  have hresult := h.result
  have hi : t.includePaths=normalizeList s.includePaths := by rw [hresult]
  have hl : t.libraryPaths=normalizeList s.libraryPaths := by rw [hresult]
  have hs : t.sdkRoots=normalizeList s.sdkRoots := by rw [hresult]
  have ht : t.toolkitRoots=normalizeList s.toolkitRoots := by rw [hresult]
  simp only [canonicalBytes,restBytes,searchLists,List.length_append,hi,hl,hs,ht,hpaths,
    List.map_cons,List.map_nil,List.sum_cons,List.sum_nil]
  omega

/-- Settled lists are encoded alike in every order. -/
theorem Rearranges.canonicalBytes {s' t' : EnvironmentSpec} (hr : s.Rearranges s')
    (h : s.Accepted t) (h' : s'.Accepted t') (hset : ∀ l ∈ s.searchLists,SettledPaths l) :
    t'.canonicalBytes=t.canonicalBytes := by
  have hpaths : ∀ ps qs : List Bytes,SettledPaths ps → qs.Perm ps →
      ((normalizeList qs).flatMap fun p => canonicalText (canonicalPathKey p))=
        (normalizeList ps).flatMap fun p => canonicalText (canonicalPathKey p) := by
    intro ps qs hps hp
    have hk := hps.keys_perm hp
    have hflat : ∀ l : List Bytes,(l.flatMap fun p => canonicalText (canonicalPathKey p))=
        (l.map canonicalPathKey).flatMap canonicalText := fun l => (List.flatMap_map ..).symm
    rw [hflat,hflat]
    exact congrArg (List.flatMap canonicalText) hk
  have hnames : uniqueBy (· == ·) (sortBytes s'.inheritedVariables)=
      uniqueBy (· == ·) (sortBytes s.inheritedVariables) := by
    rw [inherited_eq,inherited_eq]
    have hid : Settled (id : Bytes → Bytes) s.inheritedVariables := fun _ _ _ _ _ hkey => hkey
    simpa using hid.map_collapse (r := fun a b : Bytes => a ≤ b) hr.inheritedVariables
  have hvars := sort_perm hr.vars h.distinct
  have hi := hpaths _ _ (hset _ (by simp [searchLists])) hr.includePaths
  have hl := hpaths _ _ (hset _ (by simp [searchLists])) hr.libraryPaths
  have hs := hpaths _ _ (hset _ (by simp [searchLists])) hr.sdkRoots
  have ht := hpaths _ _ (hset _ (by simp [searchLists])) hr.toolkitRoots
  rw [h.result,h'.result,hr.rest]
  simp only [EnvironmentSpec.canonicalBytes,hvars,hnames,hi,hl,hs,ht]

/-- A canonical form is its own, and that of every order of what it was made from. -/
structure Canonical (s t : EnvironmentSpec) : Prop where
  again : t.canonicalize=.ok t
  orderFree : ∀ s',s.Rearranges s' → ∃ t',s'.canonicalize=.ok t' ∧ t'.canonicalBytes=t.canonicalBytes

/-- A search list that every order of it encodes alike is settled. -/
theorem Canonical.settled_list (hc : s.Canonical t) {list : List Bytes}
    (put : List Bytes → EnvironmentSpec) (others : Nat)
    (hput : ∀ qs : List Bytes,qs.Perm list → s.Rearranges (put qs))
    (hrest : ∀ qs t',(put qs).Accepted t' → t'.restBytes=t.restBytes)
    (hweight : ∀ qs,((put qs).searchLists.map weight).sum=others+weight qs) : SettledPaths list := by
  by_contra hset
  obtain ⟨qs,rs,hq,hr,hlt⟩ := exists_lighter hset
  have hlength : ∀ qs : List Bytes,qs.Perm list →
      t.canonicalBytes.length=t.restBytes.length+(others+weight qs) := by
    intro qs hq
    obtain ⟨t',ht',hb⟩ := hc.orderFree _ (hput qs hq)
    have h' := canonicalize_ok.1 ht'
    rw [← hb,h'.canonicalBytes_length,hrest qs t' h',hweight]
  have hl₁ := hlength qs hq
  have hl₂ := hlength rs hr
  omega

theorem Canonical.settled (h : s.Accepted t) (hc : s.Canonical t) :
    ∀ l ∈ s.searchLists,SettledPaths l := by
  have hresult := h.result
  simp only [searchLists,List.forall_mem_cons,List.not_mem_nil,false_implies,implies_true,and_true]
  refine ⟨?_,?_,?_,?_⟩
  · refine hc.settled_list (fun qs => { s with includePaths := qs })
      (weight s.libraryPaths+weight s.sdkRoots+weight s.toolkitRoots)
      (fun qs hq => ⟨.refl _,.refl _,hq,.refl _,.refl _,.refl _,rfl⟩)
      (fun qs t' h' => by rw [h'.result,hresult]; rfl) fun qs => ?_
    simp only [searchLists,List.map_cons,List.map_nil,List.sum_cons,List.sum_nil]
    omega
  · refine hc.settled_list (fun qs => { s with libraryPaths := qs })
      (weight s.includePaths+weight s.sdkRoots+weight s.toolkitRoots)
      (fun qs hq => ⟨.refl _,.refl _,.refl _,hq,.refl _,.refl _,rfl⟩)
      (fun qs t' h' => by rw [h'.result,hresult]; rfl) fun qs => ?_
    simp only [searchLists,List.map_cons,List.map_nil,List.sum_cons,List.sum_nil]
    omega
  · refine hc.settled_list (fun qs => { s with sdkRoots := qs })
      (weight s.includePaths+weight s.libraryPaths+weight s.toolkitRoots)
      (fun qs hq => ⟨.refl _,.refl _,.refl _,.refl _,hq,.refl _,rfl⟩)
      (fun qs t' h' => by rw [h'.result,hresult]; rfl) fun qs => ?_
    simp only [searchLists,List.map_cons,List.map_nil,List.sum_cons,List.sum_nil]
    omega
  · refine hc.settled_list (fun qs => { s with toolkitRoots := qs })
      (weight s.includePaths+weight s.libraryPaths+weight s.sdkRoots)
      (fun qs hq => ⟨.refl _,.refl _,.refl _,.refl _,.refl _,hq,rfl⟩)
      (fun qs t' h' => by rw [h'.result,hresult]; rfl) fun qs => ?_
    simp only [searchLists,List.map_cons,List.map_nil,List.sum_cons,List.sum_nil]
    omega

/-- Canonicalizing is idempotent and independent of the order exactly when every path is the same
normalized twice and a path that a list holds twice is in it with one spelling only. -/
theorem canonicalize_canonical_iff (s t : EnvironmentSpec) (h : s.canonicalize=.ok t) :
    s.Canonical t ↔ (Stable s.workingDirectory ∧ Stable s.tempDirectory ∧
      ∀ l ∈ s.searchLists,∀ p ∈ l,Stable p) ∧ ∀ l ∈ s.searchLists,SettledPaths l := by
  have hacc := canonicalize_ok.1 h
  constructor
  · intro hc
    exact ⟨hacc.again_iff.1 hc.again,hc.settled hacc⟩
  · rintro ⟨hstable,hset⟩
    refine ⟨hacc.again_iff.2 hstable,fun s' hr => ?_⟩
    obtain ⟨t',ht'⟩ := hr.accepted hacc
    exact ⟨t',canonicalize_ok.2 ht',hr.canonicalBytes hacc ht' hset⟩

end EnvironmentSpec

namespace Sample

/-- An environment with the given include paths and nothing else. -/
def including (paths : List String) : EnvironmentSpec := { includePaths := paths.map ascii }

end Sample

namespace EnvironmentSpec

theorem canonicalize_canonical_iff_paths :
    let s := Sample.including ["D:\\inc","C:\\a\\..\\b","C:\\b","d:/src/./lib"]
    let t := Sample.including ["C:\\b","D:\\inc","d:\\src\\lib"]
    s.canonicalize=.ok t ∧ (s.Canonical t ↔ (Stable s.workingDirectory ∧ Stable s.tempDirectory ∧
      ∀ l ∈ s.searchLists,∀ p ∈ l,Stable p) ∧ ∀ l ∈ s.searchLists,SettledPaths l) :=
  have h : (Sample.including ["D:\\inc","C:\\a\\..\\b","C:\\b","d:/src/./lib"]).canonicalize=
      .ok (Sample.including ["C:\\b","D:\\inc","d:\\src\\lib"]) := by decide +kernel
  ⟨h,canonicalize_canonical_iff _ _ h⟩

/-- One path in two spellings, one of them twice: which stand together depends on the order. -/
theorem not_canonicalize_canonical :
    let s := Sample.including ["C:\\A","C:\\A","c:\\a"]
    let s' := Sample.including ["C:\\A","c:\\a","C:\\A"]
    s.Rearranges s' ∧ ∃ t t',s.canonicalize=.ok t ∧ s'.canonicalize=.ok t' ∧
      t.canonicalDigest ≠ t'.canonicalDigest ∧ ¬s.Canonical t := by
  have hr : (Sample.including ["C:\\A","C:\\A","c:\\a"]).Rearranges
      (Sample.including ["C:\\A","c:\\a","C:\\A"]) :=
    ⟨.refl _,.refl _,(List.Perm.swap _ _ _).cons _,.refl _,.refl _,.refl _,rfl⟩
  have h : (Sample.including ["C:\\A","C:\\A","c:\\a"]).canonicalize=
      .ok (Sample.including ["C:\\A","c:\\a"]) := by decide +kernel
  have h' : (Sample.including ["C:\\A","c:\\a","C:\\A"]).canonicalize=
      .ok (Sample.including ["C:\\A","c:\\a","C:\\A"]) := by decide +kernel
  have hdigest : (Sample.including ["C:\\A","c:\\a"]).canonicalDigest ≠
      (Sample.including ["C:\\A","c:\\a","C:\\A"]).canonicalDigest := by decide +kernel
  refine ⟨hr,_,_,h,h',hdigest,fun hc => hdigest ?_⟩
  obtain ⟨t',ht',hb⟩ := hc.orderFree _ hr
  obtain rfl := Except.ok.inj (h'.symm.trans ht')
  rw [canonicalDigest_eq,canonicalDigest_eq,hb]

end EnvironmentSpec

end CompilerFabric
