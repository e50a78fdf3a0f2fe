import CompilerFabric.Core.Text
import CompilerFabric.Runtime.Workspace

namespace CompilerFabric

inductive WorkspaceDefect
  | none | missing | markerMissing | markerCorrupt | sessionMismatch | generationMismatch
  | phaseMismatch | reparsePoint | escape | tooDeep
deriving DecidableEq

def WorkspaceDefect.text : WorkspaceDefect → String
  | none => "none" | missing => "missing" | markerMissing => "marker-missing"
  | markerCorrupt => "marker-corrupt" | sessionMismatch => "session-mismatch"
  | generationMismatch => "generation-mismatch" | phaseMismatch => "phase-mismatch"
  | reparsePoint => "reparse-point" | escape => "escape" | tooDeep => "too-deep"

structure WorkspaceInspection where
  defect : WorkspaceDefect := .none
  root : Bytes := []
  session : CompilerSessionId := {}
  sessionGeneration : CompilerSessionGeneration := {}
  phase : CompilerPhaseId := {}
  phaseGeneration : CompilerPhaseGeneration := {}
  createdAtNanos : UInt64 := 0
  markerDigest : Digest := {}
  stale : Bool := false
  detail : Bytes := []
deriving DecidableEq

namespace WorkspaceInspection

def acceptable (i : WorkspaceInspection) : Bool := i.defect=.none

def corrupt (i : WorkspaceInspection) (detail : String) : WorkspaceInspection :=
  { i with defect := .markerCorrupt,detail := ascii detail,stale := true }

end WorkspaceInspection

def kMarkerMagic : Bytes := ascii "crf-workspace/1"
def kMaxMarkerBytes : Nat := 4096

/-- `marker_field`: the value of the first line that starts with the key. -/
def markerField (contents : Bytes) (key : String) : Bytes :=
  let needle := ascii key++[61]
  match (contents.splitOn 10).find? fun line =>
      decide (needle.length<line.length) && needle.isPrefixOf line with
  | none => []
  | some line => line.drop needle.length

/-- The part of `inspect` that reads the contents of a marker. -/
def inspectMarker (inspection : WorkspaceInspection) (contents : Bytes) : WorkspaceInspection :=
  if contents.isEmpty then inspection.corrupt "workspace marker is empty or unreadable"
  else match findText (ascii "digest=") contents with
    | none => inspection.corrupt "workspace marker has no digest"
    | some digestAt =>
        let body := contents.take digestAt
        if !startsWithCi body kMarkerMagic then
          inspection.corrupt "workspace marker has an unknown schema"
        else match Digest.fromHex (trimAscii (markerField contents "digest")) with
          | none => inspection.corrupt "workspace marker digest does not match its contents"
          | some recorded =>
              if recorded ≠ Digest.of body then
                inspection.corrupt "workspace marker digest does not match its contents"
              else
                let read := { inspection with
                  session := .parse (markerField contents "session")
                  sessionGeneration := ⟨strtoull (markerField contents "session-generation")⟩
                  phase := .parse (markerField contents "phase")
                  phaseGeneration := ⟨strtoull (markerField contents "phase-generation")⟩
                  createdAtNanos := strtoull (markerField contents "created") }
                if !read.session.present || !read.phase.present then
                  read.corrupt "workspace marker carries absent identities"
                else { read with
                  markerDigest := recorded
                  defect := .none
                  detail := ascii "workspace marker verified" }

namespace FileTree

/-- `inspect`. The keys of the tree normalise a path as `inspect` does first; `reparse` tells the
reparse points among them. -/
def inspect (files : FileTree) (reparse : Bytes → Bool) (root : Bytes) : WorkspaceInspection :=
  let inspection : WorkspaceInspection := { root := normalizePath root }
  if !files.present root then { inspection with
    defect := .missing
    detail := ascii "workspace directory does not exist" }
  else if reparse (canonicalPathKey root) then { inspection with
    defect := .reparsePoint
    detail := ascii "workspace root is a reparse point" }
  else match files (canonicalPathKey (appendPath root kMarkerName)) with
    | none => { inspection with
        defect := .markerMissing
        detail := ascii "workspace marker is missing"
        stale := true }
    | some .directory => inspectMarker inspection []
    | some (.file contents) => inspectMarker inspection (contents.take kMaxMarkerBytes)

/-- `WorkspaceManager::open`. -/
def openWorkspace (files : FileTree) (reparse : Bytes → Bool) (root : Bytes)
    (session : CompilerSessionId) (sessionGeneration : CompilerSessionGeneration)
    (phase : CompilerPhaseId) (phaseGeneration : CompilerPhaseGeneration) : Result Workspace :=
  let inspection := files.inspect reparse root
  if !inspection.acceptable then
    .error ⟨.invalidArgument,ascii "workspace rejected: "++ascii inspection.defect.text++
      ascii " "++inspection.detail⟩
  else if inspection.session ≠ session ∨ inspection.sessionGeneration ≠ sessionGeneration then
    refuse .staleSessionGeneration "workspace belongs to a different session generation"
  else if inspection.phase ≠ phase ∨ inspection.phaseGeneration ≠ phaseGeneration then
    refuse .stalePhaseGeneration "workspace belongs to a different phase generation"
  else .ok
    { root := normalizePath root
      session := inspection.session
      sessionGeneration := inspection.sessionGeneration
      phase := inspection.phase
      phaseGeneration := inspection.phaseGeneration
      markerDigest := inspection.markerDigest
      valid := true }

end FileTree

/-! A marker that `create` writes is read as it was meant. -/

section Lines

theorem isPrefixOf_append_eq_false {k l v : Bytes} (hkl : k.isPrefixOf l=false)
    (hlk : l.isPrefixOf k=false) : k.isPrefixOf (l++v)=false := by
  by_contra h
  rw [Bool.not_eq_false,List.isPrefixOf_iff_prefix] at h
  rcases List.prefix_or_prefix_of_prefix h (List.prefix_append l v) with hp | hp
  · exact absurd (List.isPrefixOf_iff_prefix.2 hp) (by simp [hkl])
  · exact absurd (List.isPrefixOf_iff_prefix.2 hp) (by simp [hlk])

/-- No `di` in a text: the digest of a marker starts nowhere in it. -/
def NoDigest (text : Bytes) : Prop := text.IsChain fun x y => ¬(x=100 ∧ y=105)

theorem NoDigest.digits {l d : Bytes} (hl : NoDigest l) (hd : ∀ c ∈ d,IsHexDigit c) :
    NoDigest (l++d) := by
  have hne : ∀ c ∈ d,c ≠ 105 := by
    rintro c hc rfl
    exact absurd (hd _ hc) (by decide)
  refine List.isChain_append.2 ⟨hl,isChain_of_forall_ne hne,?_⟩
  intro x _ y hy hxy
  exact hne y (List.mem_of_mem_head? hy) hxy.2

theorem NoDigest.line {l rest : Bytes} (hl : NoDigest l) (hr : NoDigest rest) :
    NoDigest (l++10::rest) := by
  refine List.isChain_append.2 ⟨hl,?_,?_⟩
  · cases rest with
    | nil => exact .singleton _
    | cons c rest => exact List.isChain_cons_cons.2 ⟨fun h => absurd h.1 (by decide),hr⟩
  · intro x _ y hy hxy
    simp only [List.head?_cons,Option.mem_def,Option.some.injEq] at hy
    exact absurd (hy.trans hxy.2) (by decide)

/-- A line of a marker: its key and a value. -/
def markerLine (key : String) (value : Bytes) : Bytes := ascii key++61::value

theorem newline_free_of_digits {d : Bytes} (hd : ∀ c ∈ d,IsHexDigit c) : ∀ c ∈ d,(c==10)=false := by
  intro c hc
  by_contra h
  rw [Bool.not_eq_false,beq_iff_eq] at h
  exact absurd (h ▸ hd c hc) (by decide)

end Lines

variable {session : CompilerSessionId} {sessionGeneration : CompilerSessionGeneration}
  {phase : CompilerPhaseId} {phaseGeneration : CompilerPhaseGeneration} {created : UInt64}

/-- The lines of a marker that `create` writes. -/
def markerLines (session : CompilerSessionId) (sessionGeneration : CompilerSessionGeneration)
    (phase : CompilerPhaseId) (phaseGeneration : CompilerPhaseGeneration) (created : UInt64)
    (digest : Digest) : List Bytes :=
  [kMarkerMagic,markerLine "session" session.toText,
    markerLine "session-generation" sessionGeneration.toText,markerLine "phase" phase.toText,
    markerLine "phase-generation" phaseGeneration.toText,
    markerLine "created" (decimal created.toNat),markerLine "digest" digest.toHex]

theorem markerBody_eq : markerBody session sessionGeneration phase phaseGeneration created=
    kMarkerMagic++10::(markerLine "session" session.toText++
      10::(markerLine "session-generation" sessionGeneration.toText++
      10::(markerLine "phase" phase.toText++
      10::(markerLine "phase-generation" phaseGeneration.toText++
      10::(markerLine "created" (decimal created.toNat)++10::[]))))) := by
  simp [markerBody,markerLine,kMarkerMagic,ascii]

/-- The line of an identity: constant text up to the digits of its value. -/
theorem markerLine_toText {tag : IdTag} (key : String) (i : StrongId tag) : ∃ digits,
    markerLine key i.toText=(ascii key++61::(ascii tag.idName++[45]))++digits ∧
      ∀ c ∈ digits,IsHexDigit c := by
  obtain ⟨digits,ht,_,hd,_⟩ := i.toText_digits
  refine ⟨digits,?_,hd⟩
  rw [markerLine,ht]
  simp only [List.append_assoc,List.cons_append,List.nil_append]

theorem noDigest_markerBody :
    NoDigest (markerBody session sessionGeneration phase phaseGeneration created) := by
  have hdec (n : Nat) : ∀ c ∈ decimal n,IsHexDigit c :=
    fun c hc => isHexDigit_of_decimal (decimal_digits n c hc)
  have hsession : NoDigest (markerLine "session" session.toText) := by
    obtain ⟨s,hs,hsd⟩ := markerLine_toText "session" session
    rw [hs]
    exact NoDigest.digits (by unfold NoDigest; decide) hsd
  have hphase : NoDigest (markerLine "phase" phase.toText) := by
    obtain ⟨p,hp,hpd⟩ := markerLine_toText "phase" phase
    rw [hp]
    exact NoDigest.digits (by unfold NoDigest; decide) hpd
  have hline (key : String) (n : Nat) (h : NoDigest (ascii key++[61])) :
      NoDigest (markerLine key (decimal n)) := by
    have := h.digits (hdec n)
    rwa [List.append_assoc] at this
  rw [markerBody_eq]
  refine .line (by unfold NoDigest; decide) (.line hsession (.line (hline _ _ ?_) (.line hphase
    (.line (hline _ _ ?_) (.line (hline _ _ ?_) (by unfold NoDigest; decide))))))
  all_goals unfold NoDigest; decide

theorem markerContents_eq (body : Bytes) :
    markerContents body=body++(ascii "digest="++((Digest.of body).toHex++[10])) := by
  simp [markerContents,ascii]

/-- What stands on a line of a marker holds no newline. -/
theorem newline_free_of_mem_markerLines {digest : Digest} {line : Bytes}
    (h : line ∈ markerLines session sessionGeneration phase phaseGeneration created digest) :
    ∀ c ∈ line,(c==10)=false := by
  obtain ⟨s,hs,hsd⟩ := markerLine_toText "session" session
  obtain ⟨p,hp,hpd⟩ := markerLine_toText "phase" phase
  have hdec (n : Nat) : ∀ c ∈ decimal n,(c==10)=false := newline_free_of_digits
    fun c hc => isHexDigit_of_decimal (decimal_digits n c hc)
  have hline {key value : Bytes} (hk : key.all (· != 10)=true)
      (hv : ∀ c ∈ value,(c==10)=false) : ∀ c ∈ key++value,(c==10)=false := by
    intro c hc
    rcases List.mem_append.1 hc with hc | hc
    · simpa using List.all_eq_true.1 hk c hc
    · exact hv c hc
  have hpair {key : String} {value : Bytes} (hk : (ascii key++[61]).all (· != 10)=true)
      (hv : ∀ c ∈ value,(c==10)=false) : ∀ c ∈ markerLine key value,(c==10)=false := by
    have := hline hk hv
    rwa [List.append_assoc] at this
  simp only [markerLines,List.mem_cons,List.not_mem_nil,or_false] at h
  rcases h with rfl | rfl | rfl | rfl | rfl | rfl | rfl
  · intro c hc
    simpa using List.all_eq_true.1 (by decide : kMarkerMagic.all (· != 10)=true) c hc
  · rw [hs]
    exact hline (by decide) (newline_free_of_digits hsd)
  · exact hpair (by decide) (hdec _)
  · rw [hp]
    exact hline (by decide) (newline_free_of_digits hpd)
  · exact hpair (by decide) (hdec _)
  · exact hpair (by decide) (hdec _)
  · exact hpair (by decide) (newline_free_of_digits digest.toHex_digits)

theorem splitOn_lines {lines : List Bytes} (h : ∀ line ∈ lines,∀ c ∈ line,(c==10)=false) :
    (lines.flatMap fun line => line++[10]).splitOn (10 : UInt8)=lines++[[]] := by
  induction lines with
  | nil => rfl
  | cons line lines ih =>
    rw [List.flatMap_cons,List.append_assoc,List.singleton_append,List.splitOn,
      List.splitOnP_append_cons_of_forall_mem (h line (by simp)) 10 rfl,← List.splitOn,
      ih fun l hl => h l (by simp [hl])]
    rfl

/-- A line answers its own key and no other. -/
theorem markerField_skip {key other : String} {value : Bytes}
    (hk : (ascii key++[61]).isPrefixOf (ascii other++[61])=false)
    (ho : (ascii other++[61]).isPrefixOf (ascii key++[61])=false) :
    (ascii key++[61]).isPrefixOf (markerLine other value)=false := by
  have h := isPrefixOf_append_eq_false (v := value) hk ho
  rwa [List.append_assoc] at h

theorem markerField_hit {key : String} {value : Bytes} (hv : value ≠ []) :
    (decide ((ascii key++[61]).length<(markerLine key value).length) &&
      (ascii key++[61]).isPrefixOf (markerLine key value))=true ∧
    (markerLine key value).drop (ascii key++[61]).length=value := by
  have hline : markerLine key value=(ascii key++[61])++value := by simp [markerLine]
  have hpos := List.length_pos_iff.2 hv
  rw [hline,List.drop_left]
  simp only [Bool.and_eq_true,decide_eq_true_eq,List.isPrefixOf_iff_prefix,List.prefix_append,
    List.length_append,and_true]
  omega

theorem markerField_lines {lines after : List Bytes} {key : String} {value : Bytes}
    (hfree : ∀ line ∈ lines,∀ c ∈ line,(c==10)=false) (before : List Bytes) (hl : lines=before++markerLine key value::after)
    (hskip : ∀ line ∈ before,(ascii key++[61]).isPrefixOf line=false) (hv : value ≠ []) :
    markerField (lines.flatMap (·++[10])) key=value := by
  have hnone : before.find? (fun line : Bytes =>
      decide ((ascii key++[61]).length<line.length) && (ascii key++[61]).isPrefixOf line)=none := by
    rw [List.find?_eq_none]
    intro line hline
    rw [hskip line hline,Bool.and_false]
    exact Bool.false_ne_true
  obtain ⟨hhit,hdrop⟩ := @markerField_hit key value hv
  rw [markerField,splitOn_lines hfree,hl,List.append_assoc,List.find?_append,hnone,List.cons_append,
    List.find?_cons,hhit]
  exact hdrop

theorem trimAscii_toHex (d : Digest) : trimAscii d.toHex=d.toHex := by
  have hdrop : ∀ t : Bytes,(∀ c ∈ t,IsHexDigit c) → t.dropWhile asciiIsSpace=t := by
    intro t ht
    cases t with
    | nil => rfl
    | cons c t =>
      rw [List.dropWhile_cons,if_neg (by simp [not_space_of_digit (ht c (by simp))])]
  have hrev : ∀ c ∈ d.toHex.reverse,IsHexDigit c :=
    fun c hc => d.toHex_digits c (List.mem_reverse.1 hc)
  rw [trimAscii,hdrop _ d.toHex_digits,hdrop _ hrev,List.reverse_reverse]

/-- `inspect` reads a marker back as `create` wrote it. -/
theorem inspectMarker_markerContents (inspection : WorkspaceInspection) (hs : session.present=true)
    (hp : phase.present=true) : inspectMarker inspection (markerContents
      (markerBody session sessionGeneration phase phaseGeneration created))=
    { inspection with
      session,sessionGeneration,phase,phaseGeneration
      createdAtNanos := created
      markerDigest := Digest.of
        (markerBody session sessionGeneration phase phaseGeneration created)
      defect := .none
      detail := ascii "workspace marker verified" } := by
  generalize hbody : markerBody session sessionGeneration phase phaseGeneration created=body
  have hlines : markerContents body=(markerLines session sessionGeneration phase phaseGeneration
      created (Digest.of body)).flatMap (·++[10]) := by
    rw [markerContents_eq,← hbody,markerBody_eq]
    simp [markerLines,markerLine,ascii]
  have hfree : ∀ line ∈ markerLines session sessionGeneration phase phaseGeneration created
      (Digest.of body),∀ c ∈ line,(c==10)=false := fun line h => newline_free_of_mem_markerLines h
  have hfind : findText (ascii "digest=") (markerContents body)=some body.length := by
    rw [markerContents_eq]
    exact findText_append (by decide) (hbody ▸ noDigest_markerBody) _ _
  have htake : (markerContents body).take body.length=body := by
    rw [markerContents_eq,List.take_left]
  have hmagic : startsWithCi body kMarkerMagic=true := by
    rw [← hbody,markerBody_eq,startsWithCi,List.take_left]
    simp [equalsAsciiCi]
  have hne : (markerContents body).isEmpty=false := by simp [markerContents,ascii]
  have hsession : markerField (markerContents body) "session"=session.toText := by
    rw [hlines]
    exact markerField_lines hfree [_] rfl (by decide) (by simp [StrongId.toText])
  have hsessionGeneration : markerField (markerContents body) "session-generation"=
      sessionGeneration.toText := by
    rw [hlines]
    refine markerField_lines hfree [_,_] rfl ?_ (decimal_ne_nil _)
    simp only [List.forall_mem_cons,List.not_mem_nil,false_imp_iff,implies_true,and_true]
    exact ⟨by decide,markerField_skip (by decide) (by decide)⟩
  have hphase : markerField (markerContents body) "phase"=phase.toText := by
    rw [hlines]
    refine markerField_lines hfree [_,_,_] rfl ?_ (by simp [StrongId.toText])
    simp only [List.forall_mem_cons,List.not_mem_nil,false_imp_iff,implies_true,and_true]
    exact ⟨by decide,markerField_skip (by decide) (by decide),
      markerField_skip (by decide) (by decide)⟩
  have hphaseGeneration : markerField (markerContents body) "phase-generation"=
      phaseGeneration.toText := by
    rw [hlines]
    refine markerField_lines hfree [_,_,_,_] rfl ?_ (decimal_ne_nil _)
    simp only [List.forall_mem_cons,List.not_mem_nil,false_imp_iff,implies_true,and_true]
    exact ⟨by decide,markerField_skip (by decide) (by decide),
      markerField_skip (by decide) (by decide),markerField_skip (by decide) (by decide)⟩
  have hcreated : markerField (markerContents body) "created"=decimal created.toNat := by
    rw [hlines]
    refine markerField_lines hfree [_,_,_,_,_] rfl ?_ (decimal_ne_nil _)
    simp only [List.forall_mem_cons,List.not_mem_nil,false_imp_iff,implies_true,and_true]
    exact ⟨by decide,markerField_skip (by decide) (by decide),
      markerField_skip (by decide) (by decide),markerField_skip (by decide) (by decide),
      markerField_skip (by decide) (by decide)⟩
  have hdigest : markerField (markerContents body) "digest"=(Digest.of body).toHex := by
    have hv : (Digest.of body).toHex ≠ [] := by
      intro h
      have := (Digest.of body).toHex_length
      rw [h] at this
      cases this
    rw [hlines]
    refine markerField_lines hfree [_,_,_,_,_,_] rfl ?_ hv
    simp only [List.forall_mem_cons,List.not_mem_nil,false_imp_iff,implies_true,and_true]
    exact ⟨by decide,markerField_skip (by decide) (by decide),
      markerField_skip (by decide) (by decide),markerField_skip (by decide) (by decide),
      markerField_skip (by decide) (by decide),markerField_skip (by decide) (by decide)⟩
  simp only [inspectMarker,hne,hfind,htake,hmagic,hsession,hsessionGeneration,hphase,
    hphaseGeneration,hcreated,hdigest,trimAscii_toHex,Digest.fromHex_toHex,Bool.false_eq_true,
    Bool.not_true,if_false,ne_eq,not_true,StrongId.parse_toText,Generation.toText,
    strtoull_decimal,hs,hp,Bool.or_self]

theorem markerContents_length : (markerContents
    (markerBody session sessionGeneration phase phaseGeneration created)).length ≤
      kMaxMarkerBytes := by
  obtain ⟨s,hs,hsl,_⟩ := session.toText_digits
  obtain ⟨p,hp,hpl,_⟩ := phase.toText_digits
  have h1 := decimal_length sessionGeneration.value.toNat_lt
  have h2 := decimal_length phaseGeneration.value.toNat_lt
  have h3 := decimal_length created.toNat_lt
  rw [markerContents_eq,markerBody_eq]
  simp only [markerLine,hs,hp,Generation.toText,List.length_append,List.length_cons,
    Digest.toHex_length,hsl,hpl]
  have hmagic : kMarkerMagic.length=15 := by decide
  have hkeys : (ascii "session").length=7 ∧ (ascii "session-generation").length=18 ∧
      (ascii "phase").length=5 ∧ (ascii "phase-generation").length=16 ∧
      (ascii "created").length=7 ∧ (ascii "digest=").length=7 ∧
      (ascii IdTag.session.idName).length=7 ∧ (ascii IdTag.phase.idName).length=5 := by decide
  have hmax : kMaxMarkerBytes=4096 := rfl
  simp only [List.length_nil]
  omega

/-- A directory with the marker that `create` writes is accepted for the identities and
generations written into it, and for no others. -/
theorem FileTree.openWorkspace_isOk_iff {files : FileTree} {reparse : Bytes → Bool} {root : Bytes}
    (hpresent : files.present root=true) (hplain : reparse (canonicalPathKey root)=false)
    (hmarker : files (canonicalPathKey (appendPath root kMarkerName))=some (.file (markerContents
      (markerBody session sessionGeneration phase phaseGeneration created))))
    (hs : session.present=true) (hp : phase.present=true) (s : Ref .session) (p : Ref .phase) :
    (files.openWorkspace reparse root s.id s.generation p.id p.generation).isOk=true ↔
      s=⟨session,sessionGeneration⟩ ∧ p=⟨phase,phaseGeneration⟩ := by
  have hread : files.inspect reparse root=inspectMarker { root := normalizePath root }
      (markerContents (markerBody session sessionGeneration phase phaseGeneration created)) := by
    rw [inspect,hpresent,hplain,hmarker]
    simp only [Bool.not_true,Bool.false_eq_true,if_false]
    rw [List.take_of_length_le markerContents_length]
  obtain ⟨sid,sg⟩ := s
  obtain ⟨pid,pg⟩ := p
  rw [openWorkspace,hread,inspectMarker_markerContents _ hs hp]
  simp only [WorkspaceInspection.acceptable,decide_true,Bool.not_true,Bool.false_eq_true,if_false,
    Ref.mk.injEq,ne_eq]
  by_cases h1 : ¬session=sid ∨ ¬sessionGeneration=sg
  · rw [if_pos h1]
    simp only [refuse,Except.isOk,Except.toBool,Bool.false_eq_true,false_iff]
    rintro ⟨⟨rfl,rfl⟩,_⟩
    simp at h1
  · rw [if_neg h1]
    by_cases h2 : ¬phase=pid ∨ ¬phaseGeneration=pg
    · rw [if_pos h2]
      simp only [refuse,Except.isOk,Except.toBool,Bool.false_eq_true,false_iff]
      rintro ⟨_,rfl,rfl⟩
      simp at h2
    · rw [if_neg h2]
      simp only [not_or,not_not] at h1 h2
      simp [Except.isOk,Except.toBool,h1,h2]

end CompilerFabric
