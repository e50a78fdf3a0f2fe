import CompilerFabric.Core.ProcessEnvironment
import CompilerFabric.Law.Canonicalization

namespace CompilerFabric

open EnvironmentBlock

theorem asciiUpper_lower : ∀ c,asciiUpper (asciiLower c)=asciiUpper c :=
  forall_byte (by decide +kernel)

/-- Texts that agree in lower case agree in upper case. -/
theorem toUpperAscii_of_lower {a b : Bytes} (h : toLowerAscii a=toLowerAscii b) :
    toUpperAscii a=toUpperAscii b := by
  have hmap := congrArg (List.map asciiUpper) h
  simp only [toLowerAscii,List.map_map,Function.comp_def,asciiUpper_lower] at hmap
  exact hmap

namespace EnvironmentBlock

variable {out after : List EnvironmentVariable} {v w : EnvironmentVariable} {name value : Bytes}

/-- No two variables have one name. -/
def Distinct (out : List EnvironmentVariable) : Prop := out.Pairwise fun a b => ¬a.named b.name

theorem named_iff : v.named name ↔ toLowerAscii v.name=toLowerAscii name := by
  simp [EnvironmentVariable.named,equalsAsciiCi]

/-- What a step does to the variables of `name`, and that it leaves the others alone. -/
structure Reworks (name : Bytes) (R : Bytes → Bytes → Prop) (out after : List EnvironmentVariable) :
    Prop where
  distinct : Distinct after
  kept : ∀ v ∈ out,¬v.named name → v ∈ after
  changed : ∀ v ∈ out,v.named name → ∃ w ∈ after,w.name=v.name ∧ R v.value w.value

theorem hasVariable_iff : hasVariable out name ↔ ∃ v ∈ out,v.named name := by
  simp [hasVariable]

theorem Distinct.add (h : Distinct out) (hn : ¬hasVariable out name) : Distinct (out++[⟨name,value⟩]) := by
  rw [Distinct,List.pairwise_append]
  refine ⟨h,List.pairwise_singleton _ _,fun v hv w hw => ?_⟩
  rw [List.mem_singleton.1 hw]
  exact fun hc => hn (hasVariable_iff.2 ⟨v,hv,hc⟩)

/-- Where names are distinct, the first variable of a name is all of them. -/
theorem modifyFirst_eq (h : Distinct out) (f : Bytes → Bytes) : modifyFirst name f out=
    out.map fun v => if v.named name then { v with value := f v.value } else v := by
  induction out with
  | nil => rfl
  | cons v out ih =>
    obtain ⟨hv,h⟩ := List.pairwise_cons.1 h
    rw [modifyFirst,List.map_cons]
    split_ifs with hname
    · congr 1
      conv_lhs => rw [← List.map_id out]
      refine List.map_congr_left fun w hw => ?_
      have hother : ¬w.named name := by
        intro hc
        refine hv w hw ?_
        rw [named_iff] at hc hname ⊢
        exact hname.trans hc.symm
      rw [if_neg hother]
      rfl
    · rw [ih h]

variable (name) in
theorem modifyFirst_reworks (h : Distinct out) (f : Bytes → Bytes) :
    Reworks name (fun x y => y=f x) out (modifyFirst name f out) := by
  rw [modifyFirst_eq h]
  refine ⟨?_,?_,?_⟩
  · rw [Distinct,List.pairwise_map]
    refine h.imp fun {a b} hab => ?_
    split_ifs <;> exact hab
  · intro v hv hn
    exact List.mem_map.2 ⟨v,hv,if_neg hn⟩
  · intro v hv hn
    exact ⟨_,List.mem_map.2 ⟨v,hv,if_pos hn⟩,rfl,rfl⟩

theorem addLoaderVariables_spec (ambient : Ambient) (names : List Bytes) (h : Distinct out) :
    Distinct (names.foldl (addLoaderVariable ambient) out) ∧
      ∀ v ∈ out,v ∈ names.foldl (addLoaderVariable ambient) out := by
  induction names generalizing out with
  | nil => exact ⟨h,fun v hv => hv⟩
  | cons name names ih =>
    have hstep : Distinct (addLoaderVariable ambient out name) ∧
        ∀ v ∈ out,v ∈ addLoaderVariable ambient out name := by
      unfold addLoaderVariable
      split_ifs with hn hvalue
      · exact ⟨h,fun v hv => hv⟩
      · exact ⟨h,fun v hv => hv⟩
      · exact ⟨h.add hn,fun v hv => List.mem_append_left _ hv⟩
    obtain ⟨hd,hk⟩ := ih hstep.1
    exact ⟨hd,fun v hv => hk v (hstep.2 v hv)⟩

theorem extendPath_prefix (systemRoot value : Bytes) : value <+: extendPath systemRoot value := by
  unfold extendPath
  dsimp only
  split_ifs
  · exact ⟨[59]++(systemRoot++ascii "\\System32")++([59]++systemRoot),by simp⟩
  · exact ⟨[59]++(systemRoot++ascii "\\System32"),by simp⟩
  · exact ⟨[59]++systemRoot,by simp⟩
  · exact List.prefix_refl value

/-- Where no variable has the name, one more leaves all alone. -/
theorem Distinct.add_reworks {R : Bytes → Bytes → Prop} (h : Distinct out) (hn : ¬hasVariable out name) :
    Reworks name R out (out++[⟨name,value⟩]) :=
  ⟨h.add hn,fun _ hv _ => List.mem_append_left _ hv,
    fun v hv hname => absurd (hasVariable_iff.2 ⟨v,hv,hname⟩) hn⟩

theorem addSystemDirectories_reworks (ambient : Ambient) (h : Distinct out) :
    Reworks pathName (· <+: ·) out (addSystemDirectories ambient out) := by
  unfold addSystemDirectories
  dsimp only
  split_ifs with hroot hpath
  · exact ⟨h,fun v hv _ => hv,fun v hv _ => ⟨v,hv,rfl,List.prefix_refl _⟩⟩
  · have hm := modifyFirst_reworks pathName h (extendPath (ambient (ascii "SystemRoot")))
    refine ⟨hm.distinct,hm.kept,fun v hv hn => ?_⟩
    obtain ⟨w,hw,hname,hvalue⟩ := hm.changed v hv hn
    exact ⟨w,hw,hname,hvalue ▸ extendPath_prefix _ _⟩
  · exact h.add_reworks hpath

variable (name value) in
theorem setOrAdd_reworks (h : Distinct out) :
    Reworks name (fun _ y => y=value) out (setOrAdd value out name) := by
  unfold setOrAdd
  split_ifs with hn
  · exact modifyFirst_reworks name h fun _ => value
  · exact h.add_reworks hn

variable (name value) in
theorem setOrAdd_sets (h : Distinct out) : ∃ w ∈ setOrAdd value out name,w.named name ∧ w.value=value := by
  by_cases hn : hasVariable out name
  · obtain ⟨v,hv,hname⟩ := hasVariable_iff.1 hn
    obtain ⟨w,hw,hwn,hvalue⟩ := (setOrAdd_reworks name value h).changed v hv hname
    exact ⟨w,hw,by rwa [named_iff,hwn,← named_iff],hvalue⟩
  · rw [setOrAdd,if_neg hn]
    exact ⟨⟨name,value⟩,by simp,named_iff.2 rfl,rfl⟩

/-- Distinct variables are all kept, in their order. -/
theorem foldl_keepLater (unique rest : List EnvironmentVariable) (h : Distinct (unique++rest)) :
    rest.foldl keepLater unique=unique++rest := by
  induction rest generalizing unique with
  | nil => exact (List.append_nil unique).symm
  | cons v rest ih =>
    have hlast : ¬unique.getLast?.any (·.named v.name) := by
      intro hc
      obtain ⟨w,hw,hname⟩ := (Option.any_eq_true _ _).1 hc
      exact (List.pairwise_append.1 h).2.2 w (List.mem_of_getLast? hw) v (by simp) hname
    rw [List.foldl_cons,keepLater,if_neg hlast,ih _ (by simpa using h),List.append_assoc]
    rfl

theorem Distinct.perm (h : Distinct out) (hp : out.Perm after) : Distinct after :=
  hp.pairwise h fun hab hba => hab (named_iff.2 (named_iff.1 hba).symm)

/-- The variables of an environment in canonical form have distinct names. -/
theorem distinct_vars {s spec : EnvironmentSpec} (h : s.canonicalize=.ok spec) : Distinct spec.vars := by
  have hacc := EnvironmentSpec.canonicalize_ok.1 h
  have : Std.Total fun a b : EnvironmentVariable => (EnvironmentSpec.variableLe a b : Prop) :=
    ⟨EnvironmentSpec.variableLe_total⟩
  have : IsTrans EnvironmentVariable fun a b => (EnvironmentSpec.variableLe a b : Prop) :=
    ⟨fun _ _ _ => EnvironmentSpec.variableLe_trans⟩
  have hrising := EnvironmentSpec.rising_of_distinct (List.pairwise_insertionSort _ _) hacc.distinct
  rw [hacc.result]
  refine hrising.imp fun hlt hc => ?_
  rw [toUpperAscii_of_lower (named_iff.1 hc)] at hlt
  exact List.lt_irrefl _ hlt

end EnvironmentBlock

/-- What the child is given of an environment. -/
structure EnvironmentSpec.Given (spec : EnvironmentSpec) (out : List EnvironmentVariable) : Prop where
  distinct : out.Pairwise fun a b => ¬equalsAsciiCi a.name b.name
  temp : ∀ name ∈ tempNames,(∃ v ∈ out,v.named name) ∧ ∀ v ∈ out,v.named name → v.value=spec.tempDirectory
  own : ∀ v ∈ spec.vars,¬v.named pathName → (∀ name ∈ tempNames,¬v.named name) → v ∈ out
  path : ∀ v ∈ spec.vars,v.named pathName → ∃ w ∈ out,w.name=v.name ∧ v.value <+: w.value

namespace EnvironmentBlock

variable {out : List EnvironmentVariable} {v w : EnvironmentVariable} {name value : Bytes}

theorem addSystemDirectories_congr {ambient other : Ambient} (out : List EnvironmentVariable)
    (h : ambient (ascii "SystemRoot")=other (ascii "SystemRoot")) :
    addSystemDirectories ambient out=addSystemDirectories other out := by
  simp only [addSystemDirectories,h]

theorem addLoaderVariables_congr {ambient other : Ambient} (out : List EnvironmentVariable)
    (names : List Bytes) (h : ∀ name ∈ names,ambient name=other name) :
    names.foldl (addLoaderVariable ambient) out=names.foldl (addLoaderVariable other) out := by
  refine List.foldl_ext _ _ out fun out name hn => ?_
  simp only [addLoaderVariable,h name hn]

/-- Sorting and dropping doubles changes the order only. -/
theorem mem_sorted (hd : Distinct out) : Distinct ((out.insertionSort
      fun a b => !lessAsciiCi b.name a.name).foldl keepLater []) ∧
    ∀ v,v ∈ (out.insertionSort fun a b => !lessAsciiCi b.name a.name).foldl keepLater [] ↔ v ∈ out := by
  have hp := List.perm_insertionSort (fun a b => !lessAsciiCi b.name a.name) out
  have hs := hd.perm hp.symm
  rw [foldl_keepLater [] (out.insertionSort fun a b => !lessAsciiCi b.name a.name) hs]
  exact ⟨hs,fun v => hp.mem_iff⟩

theorem Distinct.eq_of_named (h : Distinct out) (hv : v ∈ out) (hw : w ∈ out) (hvn : v.named name)
    (hwn : w.named name) : v=w := by
  have : Std.Symm fun a b : EnvironmentVariable => ¬a.named b.name :=
    ⟨fun _ _ hab hba => hab (named_iff.2 (named_iff.1 hba).symm)⟩
  by_contra hne
  exact List.Pairwise.forall h hv hw hne (named_iff.2 ((named_iff.1 hvn).trans (named_iff.1 hwn).symm))

theorem named_apart {v : EnvironmentVariable} {a b : Bytes} (h : toLowerAscii a ≠ toLowerAscii b)
    (hv : v.named a) : ¬v.named b :=
  fun hc => h ((named_iff.1 hv).symm.trans (named_iff.1 hc))

/-- Both names set, each says the value and what has another name is as it was. -/
theorem setTemp_spec (value : Bytes) (hd : Distinct out) :
    Distinct (tempNames.foldl (setOrAdd value) out) ∧
    (∀ name ∈ tempNames,∃ v ∈ tempNames.foldl (setOrAdd value) out,v.named name ∧ v.value=value) ∧
    ∀ v ∈ out,(∀ name ∈ tempNames,¬v.named name) → v ∈ tempNames.foldl (setOrAdd value) out := by
  have htemp := setOrAdd_reworks (ascii "TEMP") value hd
  have htmp := setOrAdd_reworks (ascii "TMP") value htemp.distinct
  refine ⟨htmp.distinct,?_,?_⟩
  · rintro name hname
    rcases List.mem_pair.1 hname with rfl | rfl
    · obtain ⟨v,hv,hvn,hvalue⟩ := setOrAdd_sets (ascii "TEMP") value hd
      have hother : toLowerAscii (ascii "TEMP") ≠ toLowerAscii (ascii "TMP") := by decide
      exact ⟨v,htmp.kept v hv (named_apart hother hvn),hvn,hvalue⟩
    · exact setOrAdd_sets _ value htemp.distinct
  · intro v hv hn
    exact htmp.kept v (htemp.kept v hv (hn _ (by simp [tempNames]))) (hn _ (by simp [tempNames]))

end EnvironmentBlock

section Child

variable {s spec : EnvironmentSpec}

/-- The variables with the loader variables, or without. -/
theorem withLoaders_spec (ambient : Ambient) (hd : Distinct spec.vars) (loaders : Bool) :
    Distinct (if loaders then kLoaderVariables.foldl (addLoaderVariable ambient) spec.vars else spec.vars) ∧
    ∀ v ∈ spec.vars,v ∈ if loaders then kLoaderVariables.foldl (addLoaderVariable ambient) spec.vars
      else spec.vars := by
  cases loaders with
  | false => exact ⟨hd,fun v hv => hv⟩
  | true => exact addLoaderVariables_spec ambient kLoaderVariables hd

/-- What the child is given of the environment, and that nothing else of the ambient one than the loader
variables decides it. -/
theorem child_environment (h : s.canonicalize=.ok spec) (ht : spec.tempDirectory ≠ [])
    (includeLoaderVariables : Bool) :
    (∀ ambient,spec.Given (buildProcessEnvironment ambient spec includeLoaderVariables)) ∧
    ∀ ambient other : Ambient,(∀ name ∈ kLoaderVariables,ambient name=other name) →
      buildProcessEnvironment ambient spec includeLoaderVariables=
        buildProcessEnvironment other spec includeLoaderVariables := by
  have hset : spec.tempDirectory.isEmpty=false := by simpa using ht
  have hd := distinct_vars h
  constructor
  · intro ambient
    obtain ⟨hl,hkept⟩ := withLoaders_spec ambient hd includeLoaderVariables
    have hsystem := addSystemDirectories_reworks ambient hl
    obtain ⟨htd,htemp,hrest⟩ := setTemp_spec spec.tempDirectory hsystem.distinct
    obtain ⟨hfd,hmem⟩ := mem_sorted htd
    simp only [buildProcessEnvironment,defaultTemp,hset,Bool.false_and,Bool.false_eq_true,if_false]
    refine ⟨hfd,?_,?_,?_⟩
    · intro name hname
      obtain ⟨v,hv,hvn,hvalue⟩ := htemp name hname
      refine ⟨⟨v,(hmem v).2 hv,hvn⟩,fun w hw hwn => ?_⟩
      rw [htd.eq_of_named ((hmem w).1 hw) hv hwn hvn]
      exact hvalue
    · intro v hv hpath hn
      exact (hmem v).2 (hrest v (hsystem.kept v (hkept v hv) hpath) hn)
    · intro v hv hpath
      obtain ⟨w,hw,hname,hpre⟩ := hsystem.changed v (hkept v hv) hpath
      have hwpath : w.named pathName := by rwa [named_iff,hname,← named_iff]
      refine ⟨w,(hmem w).2 (hrest w hw fun name hn => ?_),hname,hpre⟩
      rcases List.mem_pair.1 hn with rfl | rfl
      · exact named_apart (by decide) hwpath
      · exact named_apart (by decide) hwpath
  · intro ambient other hagree
    have hroot := hagree (ascii "SystemRoot") (by simp [kLoaderVariables])
    simp only [buildProcessEnvironment,addSystemDirectories_congr _ hroot,defaultTemp,hset,
      addLoaderVariables_congr spec.vars kLoaderVariables hagree,Bool.false_and,Bool.false_eq_true,if_false]

/-- A phase environment with a path and a temporary directory. -/
def Sample.phaseEnvironment : EnvironmentSpec :=
  { tempDirectory := ascii "C:/w/tmp",vars := [⟨ascii "Path",ascii "C:/tools"⟩,⟨ascii "LIB",ascii "C:/lib"⟩] }

/-- The variables of a process whose user has the name. -/
def Sample.ambient (user : Bytes) : Ambient := fun name =>
  if name=ascii "SystemRoot" then ascii "C:/Windows" else if name=ascii "USERNAME" then user else []

theorem child_environment_sample : ∃ spec,Sample.phaseEnvironment.canonicalize=.ok spec ∧
    spec.Given (buildProcessEnvironment (Sample.ambient []) spec true) ∧
    buildProcessEnvironment (Sample.ambient []) spec true=
      buildProcessEnvironment (Sample.ambient (ascii "crf")) spec true := by
  have hok : Sample.phaseEnvironment.canonicalize.toOption.any (·.tempDirectory ≠ []) := by decide +kernel
  cases hs : Sample.phaseEnvironment.canonicalize with
  | error e =>
    rw [hs] at hok
    exact nomatch hok
  | ok spec =>
    rw [hs] at hok
    have hchild := child_environment hs (by simpa [Except.toOption] using hok) true
    exact ⟨spec,rfl,hchild.1 _,hchild.2 _ _ (by decide +kernel)⟩

end Child

end CompilerFabric
