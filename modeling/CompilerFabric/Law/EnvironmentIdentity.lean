import CompilerFabric.Law.Canonicalization

namespace CompilerFabric

open Base

/-! How much of an environment its digest is about. -/

section Texts

variable {a b x y : Bytes} {as bs : List Bytes}

theorem canonicalText_inj (ha : a.length<2^32) (hb : b.length<2^32)
    (h : canonicalText a++x=canonicalText b++y) : a=b ∧ x=y := by
  unfold canonicalText at h
  rw [Nat.mod_eq_of_lt ha,Nat.mod_eq_of_lt hb,List.append_assoc,List.append_assoc] at h
  obtain ⟨hlength,hrest⟩ := List.append_inj h (by simp)
  have hvalue := congrArg leValue hlength
  rw [leValue_leBytes 4 _ ha,leValue_leBytes 4 _ hb] at hvalue
  exact List.append_inj hrest hvalue

/-- Texts with their lengths in front are told apart, also from a last byte behind them. -/
theorem texts_inj {c d : UInt8} (ha : ∀ t ∈ as,t.length<2^32) (hb : ∀ t ∈ bs,t.length<2^32)
    (h : as.flatMap canonicalText++[c]=bs.flatMap canonicalText++[d]) : as=bs ∧ c=d := by
  induction as generalizing bs with
  | nil =>
    cases bs with
    | nil => exact ⟨rfl,(List.cons.inj h).1⟩
    | cons b bs =>
      have hlength := congrArg List.length h
      simp only [List.flatMap_nil,List.flatMap_cons,List.length_append,
        EnvironmentSpec.canonicalText_length,List.length_cons,List.length_nil] at hlength
      omega
  | cons a as ih =>
    cases bs with
    | nil =>
      have hlength := congrArg List.length h
      simp only [List.flatMap_nil,List.flatMap_cons,List.length_append,
        EnvironmentSpec.canonicalText_length,List.length_cons,List.length_nil] at hlength
      omega
    | cons b bs =>
      obtain ⟨ha0,harest⟩ := List.forall_mem_cons.1 ha
      obtain ⟨hb0,hbrest⟩ := List.forall_mem_cons.1 hb
      rw [List.flatMap_cons,List.flatMap_cons,List.append_assoc,List.append_assoc] at h
      obtain ⟨rfl,hrest⟩ := canonicalText_inj ha0 hb0 h
      obtain ⟨rfl,hlast⟩ := ih harest hbrest hrest
      exact ⟨rfl,hlast⟩

end Texts

namespace EnvironmentSpec

variable {s t : EnvironmentSpec}

/-- A variable as it is hashed: the name in upper case and the value. -/
def variableTexts (v : EnvironmentVariable) : List Bytes := [toUpperAscii v.name,v.value]

/-- The texts hashed, one behind the other. -/
def texts (s : EnvironmentSpec) : List Bytes :=
  [canonicalPathKey s.workingDirectory,canonicalPathKey s.tempDirectory]++
    s.vars.flatMap variableTexts++s.includePaths.map canonicalPathKey++
    s.libraryPaths.map canonicalPathKey++s.sdkRoots.map canonicalPathKey++
    s.toolkitRoots.map canonicalPathKey++s.inheritedVariables.map toUpperAscii++
    [ascii s.localePolicy.text,s.localeName]

/-- The length in front of a text has 32 bits. -/
def Short (s : EnvironmentSpec) : Prop := ∀ text ∈ s.texts,text.length<2^32

/-- Two environments that are the same, the case of names and of paths aside. -/
structure SameIdentity (s t : EnvironmentSpec) : Prop where
  workingDirectory : canonicalPathKey s.workingDirectory=canonicalPathKey t.workingDirectory
  tempDirectory : canonicalPathKey s.tempDirectory=canonicalPathKey t.tempDirectory
  vars : s.vars.map variableTexts=t.vars.map variableTexts
  includePaths : s.includePaths.map canonicalPathKey=t.includePaths.map canonicalPathKey
  libraryPaths : s.libraryPaths.map canonicalPathKey=t.libraryPaths.map canonicalPathKey
  sdkRoots : s.sdkRoots.map canonicalPathKey=t.sdkRoots.map canonicalPathKey
  toolkitRoots : s.toolkitRoots.map canonicalPathKey=t.toolkitRoots.map canonicalPathKey
  inheritedVariables : s.inheritedVariables.map toUpperAscii=t.inheritedVariables.map toUpperAscii
  localePolicy : s.localePolicy=t.localePolicy
  localeName : s.localeName=t.localeName
  deterministicControls : s.deterministicControls=t.deterministicControls

/-- Lists of the same lengths, which nothing in the encoding separates, and one locale policy. -/
structure SameShape (s t : EnvironmentSpec) : Prop where
  vars : s.vars.length=t.vars.length
  includePaths : s.includePaths.length=t.includePaths.length
  libraryPaths : s.libraryPaths.length=t.libraryPaths.length
  sdkRoots : s.sdkRoots.length=t.sdkRoots.length
  toolkitRoots : s.toolkitRoots.length=t.toolkitRoots.length
  inheritedVariables : s.inheritedVariables.length=t.inheritedVariables.length
  localePolicy : s.localePolicy=t.localePolicy

theorem canonicalBytes_texts (s : EnvironmentSpec) : s.canonicalBytes=
    s.texts.flatMap canonicalText++canonicalBool s.deterministicControls := by
  simp [canonicalBytes,texts,variableTexts,List.flatMap_append,List.flatMap_map,List.flatMap_assoc]

theorem canonicalBool_inj {b c : Bool} (h : (if b then 1 else 0 : UInt8)=if c then 1 else 0) : b=c := by
  revert h
  cases b <;> cases c <;> decide

/-- What is hashed are the texts and the flag. -/
theorem canonicalBytes_eq_iff (hs : s.Short) (ht : t.Short) : s.canonicalBytes=t.canonicalBytes ↔
    s.texts=t.texts ∧ s.deterministicControls=t.deterministicControls := by
  rw [canonicalBytes_texts,canonicalBytes_texts]
  constructor
  · intro h
    obtain ⟨htexts,hflag⟩ := texts_inj hs ht h
    exact ⟨htexts,canonicalBool_inj hflag⟩
  · rintro ⟨htexts,hflag⟩
    rw [htexts,hflag]

theorem flatMap_variableTexts_inj {vs ws : List EnvironmentVariable} (hl : vs.length=ws.length)
    (h : vs.flatMap variableTexts=ws.flatMap variableTexts) :
    vs.map variableTexts=ws.map variableTexts := by
  induction vs generalizing ws with
  | nil => rw [List.eq_nil_of_length_eq_zero hl.symm]
  | cons v vs ih =>
    cases ws with
    | nil => simp at hl
    | cons w ws =>
      rw [List.flatMap_cons,List.flatMap_cons] at h
      obtain ⟨hv,hrest⟩ := List.append_inj h rfl
      rw [List.map_cons,List.map_cons,hv,ih (by simpa using hl) hrest]

/-- Two environments are the same when their texts are and the lists are cut alike. -/
theorem sameIdentity_iff : s.SameIdentity t ↔ s.SameShape t ∧ s.texts=t.texts ∧
    s.deterministicControls=t.deterministicControls := by
  constructor
  · intro h
    have hvars : s.vars.flatMap variableTexts=t.vars.flatMap variableTexts := by
      rw [List.flatMap,List.flatMap,h.vars]
    refine ⟨⟨?_,?_,?_,?_,?_,?_,h.localePolicy⟩,?_,h.deterministicControls⟩
    · simpa using congrArg List.length h.vars
    · simpa using congrArg List.length h.includePaths
    · simpa using congrArg List.length h.libraryPaths
    · simpa using congrArg List.length h.sdkRoots
    · simpa using congrArg List.length h.toolkitRoots
    · simpa using congrArg List.length h.inheritedVariables
    · rw [texts,texts,h.workingDirectory,h.tempDirectory,hvars,h.includePaths,h.libraryPaths,
        h.sdkRoots,h.toolkitRoots,h.inheritedVariables,h.localePolicy,h.localeName]
  · rintro ⟨hshape,htexts,hflag⟩
    have hvars : (s.vars.flatMap variableTexts).length=(t.vars.flatMap variableTexts).length := by
      simp [List.length_flatMap,variableTexts,hshape.vars]
    rw [texts,texts] at htexts
    simp only [List.append_assoc] at htexts
    obtain ⟨hdirs,htexts⟩ := List.append_inj htexts rfl
    obtain ⟨hv,htexts⟩ := List.append_inj htexts hvars
    obtain ⟨hi,htexts⟩ := List.append_inj htexts (by simp [hshape.includePaths])
    obtain ⟨hl,htexts⟩ := List.append_inj htexts (by simp [hshape.libraryPaths])
    obtain ⟨hr,htexts⟩ := List.append_inj htexts (by simp [hshape.sdkRoots])
    obtain ⟨hk,htexts⟩ := List.append_inj htexts (by simp [hshape.toolkitRoots])
    obtain ⟨hn,hlocale⟩ := List.append_inj htexts (by simp [hshape.inheritedVariables])
    obtain ⟨hw,hd⟩ := List.cons.inj hdirs
    exact ⟨hw,(List.cons.inj hd).1,flatMap_variableTexts_inj hshape.vars hv,hi,hl,hr,hk,hn,
      hshape.localePolicy,(List.cons.inj (List.cons.inj hlocale).2).1,hflag⟩

/-- Equal encodings mean the same environment exactly when equal texts are cut into lists alike. -/
theorem identity_injective_iff (s t : EnvironmentSpec) (hs : s.Short) (ht : t.Short) :
    (s.canonicalBytes=t.canonicalBytes → s.SameIdentity t) ↔
      (s.texts=t.texts → s.deterministicControls=t.deterministicControls → s.SameShape t) := by
  rw [canonicalBytes_eq_iff hs ht,sameIdentity_iff]
  exact ⟨fun h htexts hflag => (h ⟨htexts,hflag⟩).1,fun h heq => ⟨h heq.1 heq.2,heq⟩⟩

end EnvironmentSpec

namespace Sample

/-- An environment with one library path and nothing else. -/
def linking (path : String) : EnvironmentSpec := { libraryPaths := [ascii path] }

theorem including_short : (including ["C:\\x"]).Short := by
  unfold EnvironmentSpec.Short
  decide +kernel

theorem linking_short : (linking "C:\\y").Short := by
  unfold EnvironmentSpec.Short
  decide +kernel

end Sample

namespace EnvironmentSpec

theorem identity_injective_iff_other :
    let s := Sample.including ["C:\\x"]
    let t := Sample.linking "C:\\y"
    s.Short ∧ t.Short ∧ ((s.canonicalBytes=t.canonicalBytes → s.SameIdentity t) ↔
      (s.texts=t.texts → s.deterministicControls=t.deterministicControls → s.SameShape t)) :=
  ⟨Sample.including_short,Sample.linking_short,
    identity_injective_iff _ _ Sample.including_short Sample.linking_short⟩

/-- A path moved from one search list to the next is the same environment to the digest, and a
revision that moves it advances no generation. -/
theorem not_identity_injective :
    let s := Sample.including ["C:\\x"]
    let t := Sample.linking "C:\\x"
    s.canonicalize=.ok s ∧ t.canonicalize=.ok t ∧ s.canonicalBytes=t.canonicalBytes ∧
      ¬s.SameIdentity t ∧ ∀ (r : EnvironmentRegistry) (id : EnvironmentId)
        (generation : Generation .environment),
          r.entries[id.value]?=some ⟨⟨id,generation,s.canonicalDigest,s⟩,true⟩ →
            r.revise id t=.ok (⟨id,generation⟩,r) := by
  have ht : (Sample.linking "C:\\x").canonicalize=.ok (Sample.linking "C:\\x") := by decide +kernel
  have hbytes : (Sample.including ["C:\\x"]).canonicalBytes=(Sample.linking "C:\\x").canonicalBytes := by
    decide +kernel
  refine ⟨by decide +kernel,ht,hbytes,fun h => ?_,fun r id generation hr => ?_⟩
  · exact absurd (congrArg List.length h.includePaths) (by decide)
  · have hdigest : (Sample.including ["C:\\x"]).canonicalDigest=
        (Sample.linking "C:\\x").canonicalDigest := by
      rw [canonicalDigest_eq,canonicalDigest_eq,hbytes]
    unfold EnvironmentRegistry.revise SpecRegistry.reviseWith
    rw [hr,ht]
    simp [bind,Except.bind,hdigest,pure,Except.pure]

end EnvironmentSpec

end CompilerFabric
