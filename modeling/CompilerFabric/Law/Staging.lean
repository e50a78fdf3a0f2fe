import CompilerFabric.Runtime.Staging
import CompilerFabric.Core.Lineage
import CompilerFabric.Runtime.Openings

namespace CompilerFabric

open Base Base.Action

namespace SourceRegistry

/-- A registry as its operations build it. -/
inductive Built : SourceRegistry → Prop
  | empty : Built {}
  | added {r r' : SourceRegistry} {unit : SourceUnit} {reference : Ref .source} (h : Built r)
      (hr : r.add unit=.ok (reference,r')) : Built r'
  | addedAs {r r' : SourceRegistry} {id : SourceId} {unit : SourceUnit} {reference : Ref .source}
      (h : Built r) (hr : r.addAs id unit=.ok (reference,r')) : Built r'

variable {r r' : SourceRegistry} {unit : SourceUnit} {reference : Ref .source}

theorem add_ok (h : r.add unit=.ok (reference,r')) : reference=⟨r.allocator.next.1,.initial⟩ ∧
    r'=⟨r.entries.insertIfNew r.allocator.next.1.value
      { unit with id := r.allocator.next.1,generation := .initial },r.allocator.next.2⟩ := by
  unfold add at h
  split at h
  · cases h
  · cases h
    exact ⟨rfl,rfl⟩

theorem addAs_ok {id : SourceId} (h : r.addAs id unit=.ok (reference,r')) :
    ∃ kept,r'=⟨r.entries.insert id.value kept,r.allocator.observe id⟩ := by
  unfold addAs at h
  split at h
  · cases h
  · cases h
    exact ⟨_,rfl⟩

/-- While identities are left, the next one stands above everything registered. -/
theorem Built.lt_counter (h : r.Built) (hu : r.allocator.spent=false) {id : SourceId}
    (hf : r.find id=some unit) : id.value.toNat<r.allocator.counter.toNat := by
  induction h generalizing unit with
  | empty => simp [find] at hf
  | @added r r' new reference _ hr ih =>
    obtain ⟨-,rfl⟩ := add_ok hr
    rcases Table.of_insertIfNew hf with ⟨hk,_⟩ | hf
    · rw [← hk]
      exact IdAllocator.drawn_lt hu
    · have hb := ih (IdAllocator.unspent_of_le r.allocator.le_next hu) hf
      exact Nat.lt_of_lt_of_le hb r.allocator.le_next
  | @addedAs r r' id' new reference _ hr ih =>
    obtain ⟨kept,rfl⟩ := addAs_ok hr
    rcases Table.of_insert hf with ⟨hk,_⟩ | hf
    · rw [← hk]
      exact IdAllocator.lt_observe hu
    · have hle := r.allocator.le_observe id'
      exact Nat.lt_of_lt_of_le (ih (IdAllocator.unspent_of_le hle hu) hf) hle

/-- A unit that is added is found under its reference, and so are the units before it. -/
theorem Built.add_finds (h : r.Built) (hr : r.add unit=.ok (reference,r'))
    (hu : r.allocator.spent=false) :
    r'.find reference.id=some { unit with id := reference.id,generation := .initial } ∧
      ∀ id u,r.find id=some u → r'.find id=some u := by
  obtain ⟨rfl,rfl⟩ := add_ok hr
  have hfree : r.entries[r.allocator.next.1.value]?=none := by
    cases hf : r.entries[r.allocator.next.1.value]? with
    | none => rfl
    | some u => exact absurd r.allocator.le_drawn (Nat.not_le.2 (h.lt_counter hu hf))
  constructor
  · show (r.entries.insertIfNew _ _)[_]?=_
    rw [Std.ExtTreeMap.getElem?_insertIfNew,if_pos]
    refine ⟨Std.ReflCmp.compare_self,?_⟩
    rw [Std.ExtTreeMap.mem_iff_isSome_getElem?,hfree]
    exact Bool.false_ne_true
  · intro id u hf
    show (r.entries.insertIfNew _ _)[_]?=_
    rw [Std.ExtTreeMap.getElem?_insertIfNew,if_neg]
    · exact hf
    · rintro ⟨hk,_⟩
      have hk := Std.LawfulEqCmp.eq_of_compare hk
      rw [find,← hk,hfree] at hf
      cases hf

end SourceRegistry

namespace Runtime

variable {rt t : Runtime} {file : Result SourceUnit} {reference : Ref .source}
  {refs : List (Ref .source)} {files : List (Result SourceUnit)}

theorem addSource_ok (h : addSource file rt=(.ok reference,t)) :
    ∃ unit sources,file=.ok unit ∧ rt.sources.add unit=.ok (reference,sources) ∧
      t={ rt with sources } := by
  unfold addSource onSources at h
  dsimp only at h
  split at h
  · cases h
  · next hr =>
    cases h
    split at hr
    · cases hr
    · cases file with
      | error e => cases hr
      | ok unit => exact ⟨unit,_,rfl,hr,rfl⟩

/-- The registry only moves on. -/
structure Adds (rt t : Runtime) : Prop where
  built : rt.sources.Built → t.sources.Built
  counter : rt.sources.allocator.counter.toNat ≤ t.sources.allocator.counter.toNat

theorem Adds.trans {u : Runtime} (h : Adds rt t) (h' : Adds t u) : Adds rt u :=
  ⟨h'.built ∘ h.built,Nat.le_trans h.counter h'.counter⟩

instance : IsPreorder Runtime Adds where
  refl _ := ⟨id,Nat.le_refl _⟩
  trans _ _ _ := Adds.trans

theorem Adds.of_eq (h : t.sources=rt.sources) : Adds rt t := by
  constructor
  · intro hb
    rwa [h]
  · rw [h]

theorem addSource_adds (file : Result SourceUnit) : Within Adds (addSource file) := by
  intro rt
  cases h : addSource file rt with
  | mk result t =>
    cases result with
    | error e =>
      unfold addSource onSources at h
      dsimp only at h
      split at h
      · cases h
        exact Std.Refl.refl rt
      · cases h
    | ok reference =>
      obtain ⟨unit,sources,-,hadd,rfl⟩ := addSource_ok h
      refine ⟨fun hb => .added hb hadd,?_⟩
      show _ ≤ sources.allocator.counter.toNat
      rw [(SourceRegistry.add_ok hadd).2]
      exact rt.sources.allocator.le_next

theorem addSources_adds (files : List (Result SourceUnit)) : Within Adds (addSources files) := by
  induction files with
  | nil => exact .pure _
  | cons file rest ih => exact (addSource_adds file).bind fun _ => ih.bind fun _ => .pure _

theorem onTargets_adds (f : TargetRegistry → Result (Ref .target × TargetRegistry)) :
    Within Adds (onTargets f) := by
  intro rt
  apply Adds.of_eq
  unfold onTargets
  split <;> rfl

theorem onEnvironments_adds
    (f : EnvironmentRegistry → Result (Ref .environment × EnvironmentRegistry)) :
    Within Adds (onEnvironments f) := by
  intro rt
  apply Adds.of_eq
  unfold onEnvironments
  split <;> rfl

theorem onPolicies_adds (f : PolicyRegistry → Result (Ref .policy × PolicyRegistry)) :
    Within Adds (onPolicies f) := by
  intro rt
  apply Adds.of_eq
  unfold onPolicies
  split <;> rfl

theorem nextPhases_adds (nodes : List PhaseNode) : Within Adds (nextPhases nodes) :=
  fun _ => .of_eq rfl

theorem nextSession_adds : Within Adds nextSession := fun _ => .of_eq rfl

theorem requestedAttempt_adds (request : CompileRequest) :
    Within Adds (requestedAttempt request) := by
  unfold requestedAttempt
  split
  · exact .pure _
  · exact fun _ => .of_eq rfl

/-- What `addSources` registers can be found under the references it returns. -/
theorem addSources_finds (hb : rt.sources.Built) (h : addSources files rt=(.ok refs,t))
    (hu : t.sources.allocator.spent=false) :
    ∃ units : List SourceUnit,files=units.map .ok ∧ refs.length=units.length ∧
      (∀ id u,rt.sources.find id=some u → t.sources.find id=some u) ∧
      ∀ (i : Nat) (unit : SourceUnit),units[i]?=some unit → ∃ reference,refs[i]?=some reference ∧
        t.sources.find reference.id=some { unit with
          id := reference.id
          generation := .initial } := by
  induction files generalizing rt refs with
  | nil =>
    cases h
    exact ⟨[],rfl,rfl,fun _ _ h => h,fun _ _ h => nomatch h⟩
  | cons file rest ih =>
    have hle := addSources_adds (file::rest) rt
    rw [h] at hle
    obtain ⟨reference,t₁,h₁,h⟩ := seq_eq_ok.1 h
    obtain ⟨others,t₂,h₂,h⟩ := seq_eq_ok.1 h
    cases h
    obtain ⟨unit,sources,rfl,hadd,rfl⟩ := addSource_ok h₁
    obtain ⟨units,rfl,hlen,hkept,hfound⟩ := ih (.added hb hadd) h₂
    have hfinds := hb.add_finds hadd (IdAllocator.unspent_of_le hle.counter hu)
    refine ⟨unit::units,rfl,congrArg (·+1) hlen,?_,?_⟩
    · intro id u hf
      exact hkept id u (hfinds.2 id u hf)
    · intro i u hi
      cases i with
      | zero =>
        cases hi
        exact ⟨reference,rfl,hkept _ _ hfinds.1⟩
      | succ i => exact hfound i u hi

theorem addSources_length {files : List (Result SourceUnit)} (h : addSources files rt=(.ok refs,t)) :
    refs.length=files.length := by
  induction files generalizing rt refs with
  | nil =>
    cases h
    rfl
  | cons file rest ih =>
    obtain ⟨_,t₁,_,h⟩ := seq_eq_ok.1 h
    obtain ⟨others,t₂,h₂,h⟩ := seq_eq_ok.1 h
    cases h
    exact congrArg (·+1) (ih h₂)

theorem adds_of {α : Type} {x : Op α} {result : Result α} (hx : Within Adds x)
    (h : x rt=(result,t)) : Adds rt t := by
  have ha := hx rt
  rwa [h] at ha

/-- The staged sources are the last ones a request adds. -/
theorem sessionParts_sources {w : World} {request : CompileRequest} {parts : SessionParts}
    (h : sessionParts w request rt=(.ok parts,t)) :
    ∃ u plain staged,Adds rt u ∧ plain.length=request.sources.length ∧
      addSources (filesOf w.stagedFiles (request.inlineSources.map (·.1))) u=(.ok staged,t) ∧
      parts.sources=plain++staged := by
  have on {α : Type} {x : Op α} {s v : Runtime} {result : Result α} (ha : Adds rt s)
      (hx : Within Adds x) (he : x s=(result,v)) : Adds rt v := ha.trans (adds_of hx he)
  have skip {α : Type} {r : Result α} {s v : Runtime} {result : Result α} (ha : Adds rt s)
      (he : (ofExcept r : Op α) s=(result,v)) : Adds rt v := on ha (.ofExcept r) he
  obtain ⟨_,t₀,h₀,h⟩ := seq_eq_ok.1 h
  cases h₀
  obtain ⟨_,t₁,h₁,h⟩ := seq_eq_ok.1 h
  obtain ⟨_,t₂,h₂,h⟩ := seq_eq_ok.1 h
  obtain ⟨_,t₃,h₃,h⟩ := seq_eq_ok.1 h
  obtain ⟨_,t₄,h₄,h⟩ := seq_eq_ok.1 h
  obtain ⟨_,t₅,h₅,h⟩ := seq_eq_ok.1 h
  obtain ⟨_,t₆,h₆,h⟩ := seq_eq_ok.1 h
  obtain ⟨_,t₇,h₇,h⟩ := seq_eq_ok.1 h
  obtain ⟨plain,t₈,h₈,h⟩ := seq_eq_ok.1 h
  obtain ⟨_,t₉,h₉,h⟩ := seq_eq_ok.1 h
  obtain ⟨_,t₁₀,h₁₀,h⟩ := seq_eq_ok.1 h
  obtain ⟨_,t₁₁,h₁₁,h⟩ := seq_eq_ok.1 h
  obtain ⟨_,t₁₂,h₁₂,h⟩ := seq_eq_ok.1 h
  obtain ⟨_,t₁₃,h₁₃,h⟩ := seq_eq_ok.1 h
  obtain ⟨_,t₁₄,h₁₄,h⟩ := seq_eq_ok.1 h
  obtain ⟨_,t₁₅,h₁₅,h⟩ := seq_eq_ok.1 h
  obtain ⟨_,t₁₆,h₁₆,h⟩ := seq_eq_ok.1 h
  obtain ⟨_,t₁₇,h₁₇,h⟩ := seq_eq_ok.1 h
  obtain ⟨_,t₁₈,h₁₈,h⟩ := seq_eq_ok.1 h
  obtain ⟨staged,t₁₉,h₁₉,h⟩ := seq_eq_ok.1 h
  cases h
  refine ⟨t₁₈,plain,staged,?_,?_,h₁₉,rfl⟩
  · have a₆ : Adds rt t₆ :=
      skip (skip (skip (skip (skip (skip (Std.Refl.refl rt) h₁) h₂) h₃) h₄) h₅) h₆
    have a₉ := on (on (on a₆ (onTargets_adds _) h₇) (addSources_adds _) h₈) (addSources_adds _) h₉
    have a₁₁ := skip (skip a₉ h₁₀) h₁₁
    have a₁₄ := skip (on (on a₁₁ (onEnvironments_adds _) h₁₂) (onPolicies_adds _) h₁₃) h₁₄
    have a₁₆ := skip (on a₁₄ (nextPhases_adds _) h₁₅) h₁₆
    exact on (on a₁₆ nextSession_adds h₁₇) (requestedAttempt_adds request) h₁₈
  · rw [addSources_length h₈,filesOf]
    simp

end Runtime

namespace WorkspaceManager

variable {denial : StagingDenial} {session : CompilerSessionId} {name contents path : Bytes}
  {sources : List (Bytes × Bytes)} {m m' : WorkspaceManager}

/-- Where each inline source is written, and what. -/
def stagedWrites (m : WorkspaceManager) (session : CompilerSessionId)
    (sources : List (Bytes × Bytes)) : List (Bytes × Bytes) :=
  sources.map fun source => (canonicalPathKey (m.stagedPath session source.1),source.2)

/-- The unit an inline source is admitted as. -/
def stagedUnit (m : WorkspaceManager) (session : CompilerSessionId) (source : Bytes × Bytes) :
    SourceUnit :=
  let path := m.stagedPath session source.1
  { path := normalizePath path
    language := sourceLanguageFromExtension (pathExtension path)
    content := .of source.2
    sizeBytes := UInt64.ofNat source.2.length }

theorem writeStream_ok {opened : Bytes} (h : writeStream denial opened contents m=(.ok path,m')) :
    path=opened ∧ m'={ m with files := m.files.put opened contents } := by
  unfold writeStream at h
  split at h
  · cases h
  · cases h
    exact ⟨rfl,rfl⟩

theorem createDirectories_at {denied : FileDenial} {dir : Bytes} {tree files : FileTree}
    (h : FileTree.createDirectories denied dir tree=some files) (key : Bytes) :
    files key=if key ∈ FileTree.lineage dir then some .directory else tree key := by
  unfold FileTree.createDirectories at h
  split at h
  · cases h
  · cases h
    rfl

/-- A staged source is written, under the directory of the session, and nothing else is. -/
theorem stageInlineSource_ok (h : stageInlineSource denial session name contents m=(.ok path,m')) :
    path=m.stagedPath session name ∧
      canonicalPathKey path ∉ FileTree.lineage (m.stagedDirectory session) ∧
      ∃ files : FileTree,(∀ key,files key=if key ∈ FileTree.lineage (m.stagedDirectory session) then
        some .directory else m.files key) ∧ m'={ m with files := files.put path contents } := by
  obtain ⟨_,_,h₀,h⟩ := seq_eq_ok.1 h
  cases h₀
  obtain ⟨_,m₁,h₁,h⟩ := seq_eq_ok.1 h
  obtain ⟨files,hfiles,rfl⟩ := onFiles_ok h₁
  have hdirs := createDirectories_at hfiles
  obtain ⟨_,_,h₂,h⟩ := seq_eq_ok.1 h
  cases h₂
  obtain ⟨_,_,h₃,h⟩ := seq_eq_ok.1 h
  obtain ⟨hopen,rfl⟩ := ofExcept_eq_ok.1 h₃
  have hopen := ensure_ok.1 hopen
  obtain ⟨rfl,hm⟩ := writeStream_ok h
  refine ⟨rfl,?_,files,hdirs,hm⟩
  intro hin
  simp [FileTree.openable,hdirs,hin] at hopen

/-- What has just been written is what is read back. -/
theorem sourceAt_of_put {files : FileTree} (h : m.files=files.put path contents) :
    m.sourceAt path=.ok {
      path := normalizePath path
      language := sourceLanguageFromExtension (pathExtension path)
      content := .of contents
      sizeBytes := UInt64.ofNat contents.length } := by
  have hfile : files.put path contents (canonicalPathKey path)=some (.file contents) := if_pos rfl
  unfold sourceAt
  rw [h,hfile]

/-- A file put under new directories, below what later writes leave at the key. -/
theorem put_left {dir : Bytes} {old files : FileTree}
    (hout : canonicalPathKey path ∉ FileTree.lineage dir)
    (hfiles : ∀ key,files key=if key ∈ FileTree.lineage dir then some .directory else old key)
    (key : Bytes) (written : Option Bytes) (more : Prop) [Decidable more] :
    (written.map FileEntry.file).or (if more ∧ key ∈ FileTree.lineage dir then some .directory
      else files.put path contents key)=
    ((written.or (if canonicalPathKey path=key then some contents else none)).map .file).or
      (if key ∈ FileTree.lineage dir then some .directory else old key) := by
  cases written with
  | some c => rfl
  | none =>
    simp only [Option.map_none,Option.none_or,FileTree.put,hfiles]
    by_cases hk : key=canonicalPathKey path
    · subst hk
      simp [hout]
    · rw [if_neg hk,if_neg (Ne.symm hk)]
      by_cases hin : key ∈ FileTree.lineage dir <;> simp [hin]

/-- What the staging leaves at a key: the last source written there, or what was there before. -/
theorem stageInlineSources_ok {units : List SourceUnit}
    (h : stageInlineSources denial session sources m=(units.map .ok,m')) :
    units=sources.map (m.stagedUnit session) ∧ ∀ key,m'.files key=
      ((lastWrite (m.stagedWrites session sources) key).map .file).or
        (if sources ≠ [] ∧ key ∈ FileTree.lineage (m.stagedDirectory session) then some .directory
          else m.files key) := by
  induction sources generalizing m units with
  | nil =>
    obtain ⟨hu,rfl⟩ := Prod.mk.inj h
    exact ⟨(List.map_eq_nil_iff.1 hu.symm),fun key => by simp [stagedWrites,lastWrite]⟩
  | cons source rest ih =>
    obtain ⟨name,contents⟩ := source
    unfold stageInlineSources at h
    cases hs : stageInlineSource denial session name contents m with
    | mk result m₁ =>
      rw [hs] at h
      cases result with
      | error e =>
        have hu := congrArg Prod.fst h
        cases units with
        | nil => cases hu
        | cons u units => cases hu
      | ok path =>
        obtain ⟨rfl,hout,files,hfiles,rfl⟩ := stageInlineSource_ok hs
        let m₁ : WorkspaceManager :=
          { m with files := files.put (m.stagedPath session name) contents }
        have hread := @sourceAt_of_put contents (m.stagedPath session name) m₁ files rfl
        cases hr : stageInlineSources denial session rest m₁ with
        | mk shown last =>
          dsimp only at h
          rw [hr] at h
          obtain ⟨hu,hlast⟩ := Prod.mk.inj h
          have hlast : last=m' := hlast
          subst hlast
          cases units with
          | nil => cases hu
          | cons u units =>
            obtain ⟨hu,hus⟩ := List.cons.inj hu
            have hus : shown=units.map .ok := hus
            rw [hus] at hr
            obtain ⟨rfl,hkeys⟩ := ih hr
            rw [hread] at hu
            cases hu
            refine ⟨rfl,?_⟩
            intro key
            have hw : lastWrite (m.stagedWrites session ((name,contents)::rest)) key=
              (lastWrite (m.stagedWrites session rest) key).or
                (if canonicalPathKey (m.stagedPath session name)=key then some contents
                  else none) := rfl
            rw [hkeys key,hw]
            have hstep := @put_left contents _ _ _ _ hout hfiles key
              (lastWrite (m.stagedWrites session rest) key) (rest ≠ [])
            simp only [ne_eq,reduceCtorEq,not_false_eq_true,true_and]
            exact hstep

theorem stageInlineSources_length :
    (stageInlineSources denial session sources m).1.length ≤ sources.length := by
  induction sources generalizing m with
  | nil => exact Nat.le_refl _
  | cons source rest ih =>
    obtain ⟨name,contents⟩ := source
    unfold stageInlineSources
    cases stageInlineSource denial session name contents m with
    | mk result m₁ =>
      cases result with
      | error e => simp
      | ok path => exact Nat.succ_le_succ ih

/-- The file behind the path of each unit is the one last written there, or none was and it
already held the same. -/
def Undisturbed (m : WorkspaceManager) (session : CompilerSessionId)
    (sources : List (Bytes × Bytes)) : Prop :=
  ∀ source ∈ sources,
    let key := canonicalPathKey (m.stagedUnit session source).path
    let written := lastWrite (m.stagedWrites session sources) key
    written=some source.2 ∨ written=none ∧
      key ∉ FileTree.lineage (m.stagedDirectory session) ∧ m.files key=some (.file source.2)

/-- No staged path changes when it is normalised again. -/
def Plain (m : WorkspaceManager) (session : CompilerSessionId) (sources : List (Bytes × Bytes)) :
    Prop :=
  ∀ source ∈ sources,normalizePath (m.stagedPath session source.1)=m.stagedPath session source.1

/-- No two sources of different contents are staged as one file. -/
def Agree (m : WorkspaceManager) (session : CompilerSessionId) (sources : List (Bytes × Bytes)) :
    Prop :=
  ∀ source ∈ sources,∀ source' ∈ sources,canonicalPathKey (m.stagedPath session source.1)=
    canonicalPathKey (m.stagedPath session source'.1) → source.2=source'.2

theorem undisturbed_iff_agree (hs : m.Plain session sources) :
    m.Undisturbed session sources ↔ m.Agree session sources := by
  have hw : (∀ w ∈ m.stagedWrites session sources,
      lastWrite (m.stagedWrites session sources) w.1=some w.2) ↔ m.Undisturbed session sources := by
    simp only [stagedWrites,List.forall_mem_map]
    refine forall₂_congr fun source hm => ?_
    have hk : (m.stagedUnit session source).path=m.stagedPath session source.1 := hs source hm
    rw [hk]
    constructor
    · exact .inl
    · rintro (h | ⟨h,-⟩)
      · exact h
      · have hin : (_,source.2) ∈ m.stagedWrites session sources := List.mem_map.2 ⟨source,hm,rfl⟩
        have hsome := lastWrite_isSome hin
        rw [h] at hsome
        cases hsome
  rw [← hw,lastWrite_iff_agree,stagedWrites,Agree]
  simp only [List.forall_mem_map]

end WorkspaceManager

namespace Runtime

/-- The record a successful `create_session` registers. -/
theorem createSession_ok {w : World} {request : CompileRequest} {rt t : Runtime}
    {reference : Ref .session} (hnew : rt.find rt.sessionIds.next.1=none)
    (h : createSession w request rt=(.ok reference,t)) :
    ∃ u plain staged session,Adds rt u ∧ plain.length=request.sources.length ∧
      (addSources (filesOf w.stagedFiles (request.inlineSources.map (·.1))) u).1=.ok staged ∧
      (addSources (filesOf w.stagedFiles (request.inlineSources.map (·.1))) u).2.sources=t.sources ∧
      t.find reference.id=some session ∧ session.sources=plain++staged := by
  obtain ⟨parts,t₁,h₁,h⟩ := seq_eq_ok.1 h
  obtain ⟨u,plain,staged,hadds,hlen,hadded,hparts⟩ := sessionParts_sources h₁
  have hfree : t₁.sessions[parts.id.value]?=none := by
    have hd := sessionParts_draws w request rt
    rw [h₁] at hd
    have hs : t₁.estate.sessions parts.id.value=rt.estate.sessions parts.id.value := by rw [hd.estate]
    have hn : rt.estate.sessions parts.id.value=none := by
      rw [(sessionParts_ok w h₁).1]
      exact Option.map_eq_none_iff.2 hnew
    rw [hn] at hs
    exact Option.map_eq_none_iff.1 hs
  obtain ⟨_,t₂,h₂,h⟩ := seq_eq_ok.1 h
  cases h₂
  obtain ⟨_,t₃,h₃,h⟩ := seq_eq_ok.1 h
  obtain ⟨_,_,rfl⟩ := persist_frame w h₃
  obtain ⟨_,t₄,h₄,h⟩ := seq_eq_ok.1 h
  cases h₄
  obtain ⟨_,t₅,h₅,h⟩ := seq_eq_ok.1 h
  cases h₅
  cases h
  refine ⟨u,plain,staged,newSession request parts t₁.epoch w.now,hadds,hlen,?_,?_,?_,hparts⟩
  · rw [hadded]
  · rw [hadded]
  · show (t₁.sessions.insertIfNew parts.id.value _)[parts.id.value]?=_
    rw [Std.ExtTreeMap.getElem?_insertIfNew,if_pos]
    refine ⟨Std.ReflCmp.compare_self,?_⟩
    rw [Std.ExtTreeMap.mem_iff_isSome_getElem?,hfree]
    exact Bool.false_ne_true

/-- Files that can all be read are the ones that were shown. -/
theorem eq_of_filesOf {shown : List (Result SourceUnit)} {paths : List Bytes}
    {units : List SourceUnit} (hlen : shown.length ≤ paths.length)
    (h : filesOf shown paths=units.map .ok) : shown=units.map .ok := by
  rw [← h]
  apply List.ext_getElem?
  intro i
  have hi : (filesOf shown paths)[i]?=paths[i]?.map fun path => shown.getD i
      (.error ⟨.notFound,ascii "source file could not be hashed: "++path⟩) := by
    simp [filesOf,List.getElem?_zipIdx,Option.map_map,Function.comp_def]
  have hu : (filesOf shown paths)[i]?=(units[i]?).map .ok := by rw [h,List.getElem?_map]
  rw [hi] at hu ⊢
  cases hp : paths[i]? with
  | none =>
    have hge := List.getElem?_eq_none_iff.1 hp
    rw [List.getElem?_eq_none_iff.2 (by omega)]
    rfl
  | some path =>
    rw [hp] at hu
    simp only [Option.map_some,List.getD_eq_getElem?_getD] at hu ⊢
    cases hs : shown[i]? with
    | some file => rfl
    | none =>
      rw [hs] at hu
      cases hn : units[i]? with
      | none => simp [hn] at hu
      | some u => simp [hn] at hu

end Runtime

namespace Site

variable {denial : StagingDenial} {w : World} {request : CompileRequest} {site site' : Site}
  {reference : Ref .session}

/-- Each inline source of the request has a unit whose path names a file with the contents of the
source, under its digest. -/
def StagedFaithfully (site : Site) (session : CompilerSession) (request : CompileRequest) : Prop :=
  ∀ (i : Nat) (name contents : Bytes),request.inlineSources[i]?=some (name,contents) →
    ∃ reference unit,session.sources[request.sources.length+i]?=some reference ∧
      site.rt.sources.find reference.id=some unit ∧
      site.workspaces.files (canonicalPathKey unit.path)=some (.file contents) ∧
      unit.content=Digest.of contents

/-- What a successful `create_session` registers for the inline sources, and what it leaves on
disk. -/
theorem createSession_stages (hb : site.rt.sources.Built)
    (hnew : site.rt.find site.rt.sessionIds.next.1=none)
    (h : site.createSession denial w request=.ok (reference,site'))
    (hu : site'.rt.sources.allocator.spent=false) :
    ∃ session,site'.rt.find reference.id=some session ∧
      (∀ (i : Nat) (source : Bytes × Bytes),request.inlineSources[i]?=some source →
        ∃ reference,session.sources[request.sources.length+i]?=some reference ∧
          site'.rt.sources.find reference.id=some {
            site.workspaces.stagedUnit site.rt.sessionIds.next.1 source with
              id := reference.id
              generation := .initial }) ∧
      ∀ key,site'.workspaces.files key=
        ((lastWrite (site.workspaces.stagedWrites site.rt.sessionIds.next.1 request.inlineSources)
          key).map .file).or (if request.inlineSources ≠ [] ∧ key ∈ FileTree.lineage
            (site.workspaces.stagedDirectory site.rt.sessionIds.next.1) then some .directory
            else site.workspaces.files key) := by
  unfold createSession at h
  cases hst : WorkspaceManager.stageInlineSources denial site.rt.sessionIds.next.1
    request.inlineSources site.workspaces with
  | mk shown workspaces =>
    rw [hst] at h
    dsimp only at h
    cases hc : Runtime.createSession { w with stagedFiles := shown } request site.rt with
    | mk result t =>
      rw [hc] at h
      cases result with
      | error e => cases h
      | ok reference =>
        cases h
        obtain ⟨u,plain,staged,session,hadds,hplain,hstaged,hsources,hfind,hlist⟩ :=
          Runtime.createSession_ok hnew hc
        rw [← hsources] at hu
        cases ha : Runtime.addSources (Runtime.filesOf shown (request.inlineSources.map (·.1))) u with
        | mk result' v =>
          rw [ha] at hu hstaged hsources
          cases hstaged
          obtain ⟨units,hfiles,hunits,-,hfound⟩ := Runtime.addSources_finds (hadds.built hb) ha hu
          have hlen := @WorkspaceManager.stageInlineSources_length denial
            site.rt.sessionIds.next.1 request.inlineSources site.workspaces
          rw [hst] at hlen
          rw [Runtime.eq_of_filesOf (by rwa [List.length_map]) hfiles] at hst
          obtain ⟨rfl,hkeys⟩ := WorkspaceManager.stageInlineSources_ok hst
          refine ⟨session,hfind,?_,hkeys⟩
          intro i source hi
          obtain ⟨reference,hr,hf⟩ := hfound i _ (by rw [List.getElem?_map,hi]; rfl)
          refine ⟨reference,?_,?_⟩
          · rw [hlist,← hplain,List.getElem?_append_right (Nat.le_add_right _ _),
              Nat.add_sub_cancel_left]
            exact hr
          · rw [← hf]
            exact congrArg (SourceRegistry.find · reference.id) hsources.symm

theorem staged_iff_undisturbed (hb : site.rt.sources.Built)
    (hnew : site.rt.find site.rt.sessionIds.next.1=none)
    (h : site.createSession denial w request=.ok (reference,site'))
    (hu : site'.rt.sources.allocator.spent=false) :
    (∃ session,site'.rt.find reference.id=some session ∧ site'.StagedFaithfully session request) ↔
      site.workspaces.Undisturbed site.rt.sessionIds.next.1 request.inlineSources := by
  obtain ⟨session,hfind,hunits,hfiles⟩ := createSession_stages hb hnew h hu
  have hleft {source : Bytes × Bytes} (hs : source ∈ request.inlineSources) (key : Bytes) :
      site'.workspaces.files key=some (.file source.2) ↔
        lastWrite (site.workspaces.stagedWrites site.rt.sessionIds.next.1 request.inlineSources)
          key=some source.2 ∨ lastWrite (site.workspaces.stagedWrites site.rt.sessionIds.next.1
            request.inlineSources) key=none ∧
          key ∉ FileTree.lineage (site.workspaces.stagedDirectory site.rt.sessionIds.next.1) ∧
            site.workspaces.files key=some (.file source.2) := by
    rw [hfiles key]
    have hne : request.inlineSources ≠ [] := List.ne_nil_of_mem hs
    cases lastWrite (site.workspaces.stagedWrites site.rt.sessionIds.next.1
      request.inlineSources) key with
    | some c => simp
    | none =>
      by_cases hin : key ∈ FileTree.lineage
        (site.workspaces.stagedDirectory site.rt.sessionIds.next.1) <;> simp [hin,hne]
  constructor
  · rintro ⟨other,hother,hall⟩ source hs
    rw [hfind] at hother
    cases hother
    obtain ⟨i,hi⟩ := List.mem_iff_getElem?.1 hs
    obtain ⟨reference',unit,hr,hf,hfile,-⟩ := hall i source.1 source.2 hi
    obtain ⟨reference'',hr',hf'⟩ := hunits i source hi
    rw [hr] at hr'
    cases hr'
    rw [hf] at hf'
    cases hf'
    exact (hleft hs _).1 hfile
  · intro hall
    refine ⟨session,hfind,?_⟩
    intro i name contents hi
    obtain ⟨reference',hr,hf⟩ := hunits i _ hi
    have hs := List.mem_of_getElem? hi
    have hfile := (hleft hs _).2 (hall _ hs)
    exact ⟨reference',_,hr,hf,hfile,rfl⟩

/-- The files behind the staged sources of a new session are faithful exactly when the later
ones leave the earlier ones as they are: where the staged paths are plain, when no two sources of
different contents are staged as one file. -/
theorem createSession_staged_iff (hb : site.rt.sources.Built)
    (hnew : site.rt.find site.rt.sessionIds.next.1=none)
    (h : site.createSession denial w request=.ok (reference,site'))
    (hu : site'.rt.sources.allocator.spent=false) :
    ((∃ session,site'.rt.find reference.id=some session ∧ site'.StagedFaithfully session request) ↔
      site.workspaces.Undisturbed site.rt.sessionIds.next.1 request.inlineSources) ∧
    (site.workspaces.Plain site.rt.sessionIds.next.1 request.inlineSources →
      ((∃ session,site'.rt.find reference.id=some session ∧ site'.StagedFaithfully session request) ↔
        site.workspaces.Agree site.rt.sessionIds.next.1 request.inlineSources)) := by
  have hiff := staged_iff_undisturbed hb hnew h hu
  exact ⟨hiff,fun hplain => hiff.trans (WorkspaceManager.undisturbed_iff_agree hplain)⟩

end Site

namespace Sample

/-- A process that has admitted no source yet, before an empty disk. -/
def atelier : Site where
  rt := { ready.rt with sources := {} }
  workspaces := { baseDirectory := ascii "C:\\ws" }

/-- Two inline sources of one directory. -/
def distinct : CompileRequest :=
  { toolchainFamily := family
    inlineSources := [(ascii "a/x.cpp",ascii "int a;"),(ascii "a/y.cpp",ascii "int b;")] }

/-- Two inline sources of one file name. -/
def colliding : CompileRequest :=
  { toolchainFamily := family
    inlineSources := [(ascii "a/x.cpp",ascii "int a;"),(ascii "b/x.cpp",ascii "int b;")] }

/-- The request is admitted, and source identities are left. -/
def admits (request : CompileRequest) : Bool :=
  match atelier.createSession {} world request with
  | .ok (_,site) => !site.rt.sources.allocator.spent
  | .error _ => false

end Sample

namespace Site

theorem staged_of_distinct : ∃ reference site,
    Sample.atelier.createSession {} Sample.world Sample.distinct=.ok (reference,site) ∧
      ∃ session,site.rt.find reference.id=some session ∧
        site.StagedFaithfully session Sample.distinct := by
  have hin : Sample.admits Sample.distinct=true := by decide +kernel
  have hnew : Sample.atelier.rt.find Sample.atelier.rt.sessionIds.next.1=none := by decide +kernel
  have hplain : Sample.atelier.workspaces.Plain Sample.atelier.rt.sessionIds.next.1
      Sample.distinct.inlineSources := by
    unfold WorkspaceManager.Plain
    decide +kernel
  have hkeys : Sample.atelier.workspaces.Agree Sample.atelier.rt.sessionIds.next.1
      Sample.distinct.inlineSources := by
    unfold WorkspaceManager.Agree
    decide +kernel
  unfold Sample.admits at hin
  split at hin
  · next reference site h =>
    have hu := Bool.not_eq_eq_eq_not.1 hin
    exact ⟨reference,site,h,((createSession_staged_iff .empty hnew h hu).2 hplain).2 hkeys⟩
  · cases hin

/-- The second source overwrites the first. -/
theorem not_staged_of_colliding : ∃ reference site,
    Sample.atelier.createSession {} Sample.world Sample.colliding=.ok (reference,site) ∧
      ¬∃ session,site.rt.find reference.id=some session ∧
        site.StagedFaithfully session Sample.colliding := by
  have hin : Sample.admits Sample.colliding=true := by decide +kernel
  have hnew : Sample.atelier.rt.find Sample.atelier.rt.sessionIds.next.1=none := by decide +kernel
  have hlast : lastWrite (Sample.atelier.workspaces.stagedWrites
      Sample.atelier.rt.sessionIds.next.1 Sample.colliding.inlineSources)
      (canonicalPathKey (Sample.atelier.workspaces.stagedUnit Sample.atelier.rt.sessionIds.next.1
        (ascii "a/x.cpp",ascii "int a;")).path)=some (ascii "int b;") := by decide +kernel
  unfold Sample.admits at hin
  split at hin
  · next reference site h =>
    have hu := Bool.not_eq_eq_eq_not.1 hin
    refine ⟨reference,site,h,?_⟩
    rintro ⟨session,hfind,hall⟩
    obtain ⟨session',hfind',hunits,hfiles⟩ := createSession_stages .empty hnew h hu
    rw [hfind] at hfind'
    cases hfind'
    obtain ⟨reference',unit,hr,hf,hfile,-⟩ := hall 0 _ _ rfl
    obtain ⟨reference'',hr',hf'⟩ := hunits 0 _ rfl
    rw [hr] at hr'
    cases hr'
    rw [hf] at hf'
    cases hf'
    rw [hfiles,hlast] at hfile
    have he : ascii "int b;"=ascii "int a;" := FileEntry.file.inj (Option.some.inj hfile)
    exact absurd he (by decide)
  · cases hin

end Site

end CompilerFabric
