import CompilerFabric.Core.Rooted
import CompilerFabric.Law.Options
import CompilerFabric.Law.Workspaces

namespace CompilerFabric

open Base

/-! When a validated invocation stays in its workspace. -/

/-- The components of a path: its root name, its root directory and its parts. -/
def pathElements (path : Bytes) : List Bytes :=
  (if rootNameEnd path=0 then [] else [path.take (rootNameEnd path)])++
    (if hasRootDirectory path then [[92]] else [])++pathComponents path

section Elements

variable {text root : Bytes}

/-- A text that is the root, or goes on behind the root and a separator. -/
def Behind (text root : Bytes) : Prop :=
  text=root ∨ ∃ rest,text=(if root.getLast?=some 92 then root else root++[92])++rest

theorem Behind.extends (h : Behind text root) : ∃ rest,text=root++rest := by
  rcases h with rfl | ⟨rest,rfl⟩
  · exact ⟨[],(List.append_nil _).symm⟩
  · split_ifs
    · exact ⟨rest,rfl⟩
    · exact ⟨[92]++rest,List.append_assoc _ _ _⟩

theorem rootName_eq_iff (h : root <+: text) :
    rootName text=rootName root ↔ rootNameEnd text=rootNameEnd root := by
  constructor
  · intro hname
    rw [← rootName_length,hname,rootName_length]
  · intro hn
    obtain ⟨rest,rfl⟩ := h
    rw [rootName,rootName,hn,List.take_append_of_le_length (rootNameEnd_le root)]

/-- A separator that ends the text in front changes none of its parts. -/
theorem pathParts_behind {rel rest : Bytes} : pathParts rel <+:
    pathParts ((if rel.getLast?=some 92 then rel else rel++[92])++rest) := by
  by_cases hlast : rel.getLast?=some 92
  · obtain ⟨init,rfl⟩ := List.getLast?_eq_some_iff.1 hlast
    rw [if_pos hlast,pathParts_concat,List.append_assoc,List.singleton_append,pathParts_append rfl]
    exact List.prefix_append _ _
  · rw [if_neg hlast,List.append_assoc,List.singleton_append,pathParts_append rfl]
    exact List.prefix_append _ _

/-- Behind a root with the same root name a text has the components of the root in front. -/
theorem elements_behind (h : Behind text root) (hn : rootNameEnd text=rootNameEnd root) :
    pathElements root <+: pathElements text := by
  obtain ⟨more,hmore⟩ := h.extends
  have htake : text.take (rootNameEnd root)=root.take (rootNameEnd root) := by
    rw [hmore,List.take_append_of_le_length (rootNameEnd_le root)]
  have hdrop : text.drop (rootNameEnd root)=root.drop (rootNameEnd root)++more := by
    rw [hmore,List.drop_append_of_le_length (rootNameEnd_le root)]
  unfold pathElements hasRootDirectory pathComponents
  rw [hn,htake]
  by_cases hrel : root.drop (rootNameEnd root)=[]
  · rw [hrel]
    simp [pathParts_nil]
  · have hhead : (text.drop (rootNameEnd root)).head?=(root.drop (rootNameEnd root)).head? := by
      rw [hdrop,List.head?_append_of_ne_nil _ hrel]
    rw [hhead]
    refine (List.prefix_append_right_inj _).2 ?_
    rcases h with rfl | ⟨rest,hrest⟩
    · exact List.prefix_rfl
    · have hlt : ¬root.length ≤ rootNameEnd root := by simpa using hrel
      have hlast : (root.drop (rootNameEnd root)).getLast?=root.getLast? := by
        rw [List.getLast?_drop,if_neg hlt]
      have hparts := @pathParts_behind (root.drop (rootNameEnd root)) rest
      have hbehind : text.drop (rootNameEnd root)=(if root.getLast?=some 92 then
          root.drop (rootNameEnd root) else root.drop (rootNameEnd root)++[92])++rest := by
        rw [hrest]
        split_ifs
        · rw [List.drop_append_of_le_length (rootNameEnd_le root)]
        · rw [List.append_assoc,List.drop_append_of_le_length (rootNameEnd_le root),
            List.append_assoc]
      rwa [hlast,← hbehind] at hparts

theorem rootNameEnd_ne_one (path : Bytes) : rootNameEnd path ≠ 1 := by
  rcases rootNameEnd_cases path with h | ⟨c,rest,rfl,hc⟩ | ⟨c,d,q,rest,rfl,hc,hd,hq⟩ |
    ⟨c,s,after,rfl,hc,hs,hafter⟩
  · omega
  · rw [rootNameEnd_drive hc]
    omega
  · rw [rootNameEnd_server hc hd hq]
    omega
  · rw [rootNameEnd_device hc hs hafter]
    omega

theorem elements_head (rest : Bytes) : (pathElements (92::rest)).head?.map List.length=
    some (if rootNameEnd (92::rest)=0 then 1 else rootNameEnd (92::rest)) := by
  by_cases hn : rootNameEnd (92::rest)=0
  · simp [pathElements,hasRootDirectory,hn,isSlash]
  · have hlen := rootNameEnd_le (92::rest)
    simp only [List.length_cons] at hlen
    simp [pathElements,hn,hlen]

/-- Where both begin with a separator, components in front make the root names end together. -/
theorem rootNameEnd_of_elements {a b : Bytes} (h : pathElements (92::a) <+: pathElements (92::b)) :
    rootNameEnd (92::b)=rootNameEnd (92::a) := by
  have ha := elements_head a
  have hb := elements_head b
  obtain ⟨rest,hrest⟩ := h
  have hne : pathElements (92::a) ≠ [] := by
    intro hnil
    rw [hnil] at ha
    cases ha
  rw [← hrest,List.head?_append_of_ne_nil _ hne,ha] at hb
  have h1 := rootNameEnd_ne_one (92::a)
  have h2 := rootNameEnd_ne_one (92::b)
  have hsame := Option.some.inj hb
  split_ifs at hsame <;> omega

end Elements

namespace Workspace

variable {w : Workspace} {path : Bytes}

/-- The components of the workspace root are in front of those of the path. -/
def Holds (w : Workspace) (path : Bytes) : Prop :=
  pathElements (canonicalPathKey w.root) <+: pathElements (canonicalPathKey path)

instance (w : Workspace) (path : Bytes) : Decidable (w.Holds path) :=
  inferInstanceAs (Decidable (_ <+: _))

/-- A key an absolute path can lie behind: a drive, alone or with its root directory, or a text
that begins with a separator. -/
def Anchored (key : Bytes) : Prop :=
  (∃ c rest,key=c::58::rest ∧ isDriveLetter c=true ∧ (rest=[] ∨ rest.head?.any isSlash=true)) ∨
    ∃ rest,key=92::rest

theorem behind_of_contains (h : w.contains path=true) : canonicalPathKey w.root ≠ [] ∧
    Behind (canonicalPathKey (normalizePath path)) (canonicalPathKey w.root) := by
  obtain ⟨_,hroot,h⟩ := pathIsWithin_iff.1 (Bool.and_eq_true_iff.1 h).2
  refine ⟨hroot,h.imp_right ?_⟩
  rintro ⟨rest,_,hrest⟩
  exact ⟨rest,hrest⟩

/-- An absolute path keeps a drive with its root directory, or a separator in front. -/
theorem normalizePath_absolute (h : isAbsolutePath path=true) :
    (∃ c s rest,normalizePath path=c::58::s::rest ∧ isDriveLetter c=true ∧ isSlash s=true) ∨
      ∃ rest,normalizePath path=92::rest := by
  match path with
  | [] => cases h
  | [_] => cases h
  | c::d::rest =>
    simp only [isAbsolutePath] at h
    by_cases hdrive : (isDriveLetter c && d==58)=true
    · rw [if_pos hdrive] at h
      obtain ⟨hc,hd⟩ := Bool.and_eq_true_iff.1 hdrive
      obtain rfl := eq_of_beq hd
      obtain ⟨r,hr,hhead⟩ := @normalizePath_drive c rest hc
      rw [h] at hhead
      cases r with
      | nil => cases hhead
      | cons s r => exact .inl ⟨c,s,r,hr,hc,hhead⟩
    · rw [if_neg hdrive,decide_eq_true_eq] at h
      rcases rootNameEnd_cases (c::d::rest) with hn | ⟨c',_,he,hc⟩ | ⟨c',_,_,_,he,hc,_⟩ |
        ⟨c',_,_,he,hc,_⟩
      · exact absurd hn h
      · obtain ⟨rfl,hrest⟩ := List.cons.inj he
        exact absurd (by simp [hc,(List.cons.inj hrest).1]) hdrive
      all_goals
        obtain ⟨rfl,_⟩ := List.cons.inj he
        exact .inr (normalizePath_slash hc)

theorem not_driveRelative (h : isAbsolutePath path=true) : ¬DriveRelative (normalizePath path) := by
  rintro ⟨c,rest,he,hc,hrest⟩
  rcases normalizePath_absolute h with ⟨_,s,more,hs,_,hslash⟩ | ⟨more,hs⟩
  · rw [hs] at he
    obtain ⟨_,he⟩ := List.cons.inj he
    rw [← (List.cons.inj he).2] at hrest
    exact absurd (hrest.symm.trans hslash) Bool.false_ne_true
  · rw [hs] at he
    rw [← (List.cons.inj he).1] at hc
    exact absurd hc (by decide)

theorem foldByte_slash {s : UInt8} (h : isSlash s=true) : foldByte s=92 := by
  simp only [isSlash,Bool.or_eq_true,beq_iff_eq] at h
  rcases h with rfl | rfl <;> rfl

/-- What an absolute path lies behind is anchored. -/
theorem anchored_of_contains (hc : w.contains path=true) (habs : isAbsolutePath path=true) :
    Anchored (canonicalPathKey w.root) := by
  obtain ⟨hne,hbehind⟩ := behind_of_contains hc
  rw [canonicalPathKey_eq (normalizePath path),normalizePath_stable (not_driveRelative habs)] at hbehind
  generalize canonicalPathKey w.root=root at *
  rcases normalizePath_absolute habs with ⟨c,s,more,hs,hletter,hslash⟩ | ⟨more,hs⟩
  · rw [hs,List.map_cons,List.map_cons,List.map_cons,foldByte_slash hslash] at hbehind
    have hfold : isDriveLetter (foldByte c)=true := (isDriveLetter_fold c).trans hletter
    obtain ⟨rest,hrest⟩ := hbehind.extends
    cases root with
    | nil => exact absurd rfl hne
    | cons a root =>
      obtain ⟨ha,htail⟩ := List.cons.inj hrest
      subst ha
      cases root with
      | nil =>
        -- a drive letter alone would need a separator behind it
        have hne92 : foldByte c ≠ 92 := fun he => absurd (he ▸ hfold) (by decide)
        rcases hbehind with he | ⟨rest,he⟩
        · cases (List.cons.inj he).2
        · have hlast : [foldByte c].getLast? ≠ some 92 := by simpa using hne92
          rw [if_neg hlast] at he
          exact absurd (List.cons.inj (List.cons.inj he).2).1 (by decide)
      | cons b root =>
        obtain ⟨hb,hthird⟩ := List.cons.inj htail
        subst hb
        refine .inl ⟨_,root,rfl,hfold,?_⟩
        cases root with
        | nil => exact .inl rfl
        | cons d root =>
          obtain ⟨hd,_⟩ := List.cons.inj hthird
          subst hd
          exact .inr rfl
  · rw [hs,List.map_cons] at hbehind
    obtain ⟨rest,hrest⟩ := hbehind.extends
    cases root with
    | nil => exact absurd rfl hne
    | cons a root =>
      obtain ⟨ha,_⟩ := List.cons.inj hrest
      subst ha
      exact .inr ⟨root,rfl⟩

/-- A drive without its root directory lies behind no anchored root but its own. -/
theorem drive_of_behind {c : UInt8} {rest root : Bytes} (hc : isDriveLetter c=true)
    (hrest : rest.head?.any isSlash=false) (h : Behind (c::58::rest) root) (hroot : Anchored root) :
    root=[c,58] := by
  obtain ⟨more,hmore⟩ := h.extends
  rcases hroot with ⟨c',tail,rfl,_,htail⟩ | ⟨tail,rfl⟩
  · have hbehind : rest=tail++more := (List.cons.inj (List.cons.inj hmore).2).2
    obtain ⟨rfl,_⟩ := List.cons.inj hmore
    rcases htail with rfl | htail
    · rfl
    · cases tail with
      | nil => rfl
      | cons s tail =>
        rw [hbehind] at hrest
        exact absurd (hrest.symm.trans htail) Bool.false_ne_true
  · rw [(List.cons.inj hmore).1] at hc
    exact absurd hc (by decide)

/-- What a path that is contained has to share with an anchored root to have its components in
front: the root name. -/
theorem holds_iff (hc : w.contains path=true) (hroot : Anchored (canonicalPathKey w.root)) :
    w.Holds path ↔ rootName (canonicalPathKey path)=rootName (canonicalPathKey w.root) := by
  obtain ⟨_,hbehind⟩ := behind_of_contains hc
  unfold Holds
  by_cases hdrive : DriveRelative (normalizePath path)
  · obtain ⟨c,rest,he,hletter,hrest⟩ := hdrive
    obtain ⟨r,hr,hhead⟩ := @normalizePath_drive c rest hletter
    have hfold : isDriveLetter (foldByte c)=true := (isDriveLetter_fold c).trans hletter
    have hopen : (r.map foldByte).head?.any isSlash=false := by
      rw [List.head?_map,any_fold,hhead,hrest]
    rw [canonicalPathKey_eq,he,hr] at hbehind
    have hown := drive_of_behind hfold hopen hbehind hroot
    have hkey : canonicalPathKey path=foldByte c::58::rest.map foldByte := by
      rw [canonicalPathKey_eq,he]
      rfl
    have hfront : [foldByte c,58] <+: foldByte c::58::rest.map foldByte := ⟨_,rfl⟩
    rw [hown,hkey,rootName_eq_iff hfront,rootNameEnd_drive hfold,rootNameEnd_drive hfold]
    simp [pathElements,hasRootDirectory,pathComponents,pathParts_nil,rootNameEnd_drive hfold]
  · rw [canonicalPathKey_eq (normalizePath path),normalizePath_stable hdrive,
      ← canonicalPathKey_eq] at hbehind
    generalize canonicalPathKey path=key at *
    generalize canonicalPathKey w.root=root at *
    obtain ⟨rest,hrest⟩ := hbehind.extends
    rw [rootName_eq_iff ⟨rest,hrest.symm⟩]
    refine ⟨fun h => ?_,elements_behind hbehind⟩
    rcases hroot with ⟨c,tail,rfl,hletter,_⟩ | ⟨tail,rfl⟩
    · rw [hrest,List.cons_append,List.cons_append,rootNameEnd_drive hletter,rootNameEnd_drive hletter]
    · rw [hrest] at h ⊢
      exact rootNameEnd_of_elements h

/-- An output is inside only with the root name of the workspace root. -/
theorem rootName_of_relative (habs : isAbsolutePath path=true) (hc : w.contains path=true)
    (h : lexicallyRelative (normalizePath path) (normalizePath w.root) ≠ []) :
    rootName (canonicalPathKey path)=rootName (canonicalPathKey w.root) := by
  have hsame : (normalizePath path).take (rootNameEnd (normalizePath path))=
      (normalizePath w.root).take (rootNameEnd (normalizePath w.root)) := by
    by_contra hne
    exact h (by rw [lexicallyRelative,if_pos (.inl hne)])
  have hlen := congrArg List.length hsame
  rw [List.length_take,List.length_take,Nat.min_eq_left (rootNameEnd_le _),
    Nat.min_eq_left (rootNameEnd_le _)] at hlen
  obtain ⟨_,hbehind⟩ := behind_of_contains hc
  rw [canonicalPathKey_eq (normalizePath path),normalizePath_stable (not_driveRelative habs),
    ← canonicalPathKey_eq] at hbehind
  obtain ⟨rest,hrest⟩ := hbehind.extends
  rw [rootName_eq_iff ⟨rest,hrest.symm⟩,canonicalPathKey_eq,canonicalPathKey_eq,rootNameEnd_fold,
    rootNameEnd_fold,hlen]

end Workspace

namespace InvocationSpec

/-- The working directory and the staged inputs of an invocation. -/
def enteredPaths (spec : InvocationSpec) : List Bytes :=
  spec.workingDirectory::(spec.inputs.filter (·.staged)).map (·.path)

/-- An invocation that stays in its workspace. -/
structure Confined (spec : InvocationSpec) (w : Workspace) : Prop where
  outputs : ∀ binding ∈ spec.expectedOutputs,w.Holds binding.path
  entered : ∀ path ∈ spec.enteredPaths,w.Holds path
  noParent : ∀ path ∈ spec.inputs.map (·.path)++spec.expectedOutputs.map (·.path),
    [46,46] ∉ pathComponents path

end InvocationSpec

section Validated

variable {host : Host} {context : InvocationValidationContext} {spec out : InvocationSpec}
  {w : Workspace}

theorem InvocationValidationContext.settle_bindings (context : InvocationValidationContext)
    (spec : InvocationSpec) : (context.settle spec).inputs=spec.inputs ∧
      (context.settle spec).expectedOutputs=spec.expectedOutputs := by
  unfold settle
  split
  · split_ifs <;> exact ⟨rfl,rfl⟩
  · exact ⟨rfl,rfl⟩

theorem pathHasTraversal_eq_false {path : Bytes} (h : ¬pathHasTraversal path=true) :
    [46,46] ∉ pathComponents path := by
  intro hup
  refine h ?_
  rw [pathHasTraversal,Bool.or_eq_true]
  exact .inr (List.contains_iff_mem.2 hup)

/-- What is checked of the paths of an invocation that is accepted. -/
theorem validated_paths (h : validateInvocation host context spec=.ok out)
    (hw : context.workspace=some w) :
    (∀ binding ∈ out.inputs,[46,46] ∉ pathComponents binding.path ∧
      (binding.staged=true → w.contains binding.path=true)) ∧
    (∀ binding ∈ out.expectedOutputs,[46,46] ∉ pathComponents binding.path ∧
      isAbsolutePath binding.path=true ∧ w.contains binding.path=true ∧
      lexicallyRelative (normalizePath binding.path) (normalizePath w.root) ≠ []) ∧
    (out.workingDirectory=[] ∧ w.root=[] ∨
      isAbsolutePath out.workingDirectory=true ∧ w.contains out.workingDirectory=true) := by
  rw [InvocationValidationContext.validateInvocation_eq] at h
  obtain ⟨_,_,h⟩ := do_eq_ok.1 h
  obtain ⟨_,_,h⟩ := do_eq_ok.1 h
  obtain ⟨_,_,h⟩ := do_eq_ok.1 h
  obtain ⟨⟨⟩,hinputs,h⟩ := do_eq_ok.1 h
  obtain ⟨⟨⟩,houtputs,h⟩ := do_eq_ok.1 h
  obtain ⟨⟨⟩,hdirectory,h⟩ := do_eq_ok.1 h
  obtain ⟨_,_,h⟩ := do_eq_ok.1 h
  obtain rfl := Except.ok.inj h
  obtain ⟨hsame,hsame'⟩ := context.settle_bindings spec
  rw [hsame,hsame']
  refine ⟨fun binding hb => ?_,fun binding hb => ?_,?_⟩
  · obtain ⟨_,_,hcheck⟩ := do_eq_ok.1 (forM_ok.1 hinputs binding hb)
    obtain ⟨_,hup,hcheck⟩ := do_eq_ok.1 hcheck
    have hstaged := ensure_ok.1 hcheck
    rw [hw] at hstaged
    refine ⟨pathHasTraversal_eq_false (ensure_ok.1 hup),fun hs => ?_⟩
    simpa [hs] using hstaged
  · obtain ⟨_,_,hcheck⟩ := do_eq_ok.1 (forM_ok.1 houtputs binding hb)
    obtain ⟨_,habs,hcheck⟩ := do_eq_ok.1 hcheck
    obtain ⟨_,hup,hcheck⟩ := do_eq_ok.1 hcheck
    obtain ⟨_,_,hcheck⟩ := do_eq_ok.1 hcheck
    rw [hw] at hcheck
    obtain ⟨_,hcontains,hcheck⟩ := do_eq_ok.1 hcheck
    obtain ⟨_,hrelative,_⟩ := do_eq_ok.1 hcheck
    refine ⟨pathHasTraversal_eq_false (ensure_ok.1 hup),ensure_ok.1 habs,ensure_ok.1 hcontains,?_⟩
    simpa using (ensure_ok.1 hrelative).1
  · obtain ⟨_,habs,hcheck⟩ := do_eq_ok.1 hdirectory
    have habs := ensure_ok.1 habs
    have hcontains := ensure_ok.1 hcheck
    rw [hw] at hcontains
    by_cases hempty : (context.settle spec).workingDirectory=[]
    · left
      refine ⟨hempty,?_⟩
      unfold InvocationValidationContext.settle at hempty
      rw [hw] at hempty
      dsimp only at hempty
      split_ifs at hempty with hnone
      · exact hempty
      · exact absurd (List.isEmpty_iff.2 hempty) hnone
    · right
      simpa [hempty] using And.intro habs hcontains

/-- An accepted invocation stays in its workspace exactly when its working directory and its
staged inputs have the root name of the workspace root. -/
theorem validated_confined_iff (h : validateInvocation host context spec=.ok out)
    (hw : context.workspace=some w) : out.Confined w ↔ ∀ path ∈ out.enteredPaths,
      rootName (canonicalPathKey path)=rootName (canonicalPathKey w.root) := by
  obtain ⟨hinputs,houtputs,hdirectory⟩ := validated_paths h hw
  have hstaged (path : Bytes) (hp : path ∈ (out.inputs.filter (·.staged)).map (·.path)) :
      w.contains path=true := by
    obtain ⟨binding,hb,rfl⟩ := List.mem_map.1 hp
    obtain ⟨hb,hs⟩ := List.mem_filter.1 hb
    exact (hinputs binding hb).2 hs
  have hentered : ∀ path ∈ out.enteredPaths,
      (w.Holds path ↔ rootName (canonicalPathKey path)=rootName (canonicalPathKey w.root)) := by
    intro path hp
    rcases hdirectory with ⟨hnone,hroot⟩ | ⟨habs,hcontains⟩
    · rcases List.mem_cons.1 hp with rfl | hp
      · rw [Workspace.Holds,hnone,hroot]
        simp
      · -- nothing lies in a workspace without a root
        have hne := (Workspace.behind_of_contains (hstaged path hp)).1
        rw [hroot] at hne
        exact absurd rfl hne
    · have hanchored := Workspace.anchored_of_contains hcontains habs
      rcases List.mem_cons.1 hp with rfl | hp
      · exact Workspace.holds_iff hcontains hanchored
      · exact Workspace.holds_iff (hstaged path hp) hanchored
  constructor
  · intro hconfined path hp
    exact (hentered path hp).1 (hconfined.entered path hp)
  · intro hnames
    refine ⟨fun binding hb => ?_,fun path hp => (hentered path hp).2 (hnames path hp),?_⟩
    · obtain ⟨_,habs,hcontains,hrelative⟩ := houtputs binding hb
      exact (Workspace.holds_iff hcontains (Workspace.anchored_of_contains hcontains habs)).2
        (Workspace.rootName_of_relative habs hcontains hrelative)
    · intro path hp
      rcases List.mem_append.1 hp with hp | hp
      · obtain ⟨binding,hb,rfl⟩ := List.mem_map.1 hp
        exact (hinputs binding hb).1
      · obtain ⟨binding,hb,rfl⟩ := List.mem_map.1 hp
        exact (houtputs binding hb).1

end Validated

namespace Sample

/-- A machine with a compiler and one directory. -/
def shareHost (directory : String) : Host :=
  { files := fun path =>
      if path=canonicalPathKey (ascii "C:\\cl.exe") then some (.file [])
      else if path=canonicalPathKey (ascii directory) then some .directory
      else none }

def rootedAt (root : String) : InvocationValidationContext :=
  { x64 with workspace := some { root := ascii root,valid := true } }

/-- A compilation in a directory, of an input staged there. -/
def compileIn (directory input : String) : InvocationSpec :=
  { executable := ascii "C:\\cl.exe"
    workingDirectory := ascii directory
    inputs := [{ path := ascii input,staged := true }] }

end Sample

theorem validated_confined_drive :
    let context := Sample.rootedAt "C:\\Work\\"
    let spec := Sample.compileIn "c:\\work" "C:\\WORK\\inputs\\main.c"
    validateInvocation (Sample.shareHost "c:\\work") context spec=.ok spec ∧
      (spec.Confined { root := ascii "C:\\Work\\",valid := true } ↔ ∀ path ∈ spec.enteredPaths,
        rootName (canonicalPathKey path)=rootName (canonicalPathKey (ascii "C:\\Work\\"))) :=
  have h : validateInvocation (Sample.shareHost "c:\\work") (Sample.rootedAt "C:\\Work\\")
      (Sample.compileIn "c:\\work" "C:\\WORK\\inputs\\main.c")=
        .ok (Sample.compileIn "c:\\work" "C:\\WORK\\inputs\\main.c") := by decide +kernel
  ⟨h,validated_confined_iff h rfl⟩

/-- From the root directory of the current drive a share of another machine is entered. -/
theorem not_confined_share :
    ¬∀ (host : Host) (context : InvocationValidationContext) (spec out : InvocationSpec)
      (w : Workspace),context.workspace=some w → w.valid=true →
        validateInvocation host context spec=.ok out → out.Confined w := by
  intro hall
  have hok : validateInvocation (Sample.shareHost "\\\\build\\share") (Sample.rootedAt "\\")
      (Sample.compileIn "\\\\build\\share" "\\\\build\\share\\main.c")=
        .ok (Sample.compileIn "\\\\build\\share" "\\\\build\\share\\main.c") := by decide +kernel
  have hheld := (hall _ _ _ _ _ rfl rfl hok).entered (ascii "\\\\build\\share") List.mem_cons_self
  exact absurd hheld (by decide +kernel)

end CompilerFabric
