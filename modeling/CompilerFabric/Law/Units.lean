import CompilerFabric.Law.Renamed
import CompilerFabric.Law.Staging
import CompilerFabric.Runtime.MsvcPlan

namespace CompilerFabric

open Base Base.Action

theorem splitLast_none {c : UInt8} {text : Bytes} (h : c ∉ text) : splitLast c text=none := by
  induction text with
  | nil => rfl
  | cons x rest ih =>
    rw [List.mem_cons,not_or] at h
    rw [splitLast,ih h.2]
    exact if_neg (Ne.symm h.1)

theorem splitLast_append {c : UInt8} (before : Bytes) {after : Bytes} (h : c ∉ after) :
    splitLast c (before++c::after)=some (before,after) := by
  induction before with
  | nil =>
    rw [List.nil_append,splitLast,splitLast_none h]
    exact if_pos rfl
  | cons x before ih => rw [List.cons_append,splitLast,ih]

namespace MsvcAdapter

variable {units i : Nat} {wantSmokeTest : Bool} {node : PhaseNode}

/-- A compile phase finds the ordinal its plan gave it. -/
theorem parsePhaseIndex_compileName (h : i<2^64) : parsePhaseIndex (compileName i)=some i := by
  have hdigits := decimal_digits i
  have hsharp : (35 : UInt8) ∉ decimal i := by
    intro hm
    exact absurd (hdigits 35 hm) (by decide)
  have hparse : strtoull (decimal i)=UInt64.ofNat i := by
    have hv := strtoull_decimal (UInt64.ofNat i)
    rwa [UInt64.toNat_ofNat_of_lt' h] at hv
  have hsplit := splitLast_append (ascii "compile") hsharp
  rw [parsePhaseIndex,show compileName i=ascii "compile"++35::decimal i from rfl,hsplit]
  dsimp only
  rw [if_neg,hparse,UInt64.toNat_ofNat_of_lt' h]
  rw [Bool.or_eq_true,not_or,Bool.not_eq_true,Bool.not_eq_true,List.isEmpty_eq_false_iff,
    Bool.not_eq_false',List.all_eq_true]
  exact ⟨decimal_ne_nil i,hdigits⟩

/-- The identities of the plan, in the order they are drawn. -/
def phaseId (n : Nat) : CompilerPhaseId := ⟨UInt64.ofNat n⟩

def compileNode (i : Nat) : PhaseNode where
  id := phaseId (i+2)
  kind := .codegen
  adapterPhase := compileName i
  dependsOn := [phaseId 1]
  expectedOutputs := [.coffObject]

def validateNode : PhaseNode where
  id := phaseId 1
  kind := .inputValidate
  adapterPhase := ascii "validate-inputs"

def linkNode (units : Nat) : PhaseNode where
  id := phaseId (units+2)
  kind := .link
  adapterPhase := ascii "link"
  dependsOn := (List.range units).map fun i => phaseId (i+2)
  fanIn := true
  requiredInputs := UInt64.ofNat units
  expectedOutputs := [.coffImage,.linkerMap]

def finalizeNode (units : Nat) : PhaseNode where
  id := phaseId (units+3)
  kind := .finalize
  adapterPhase := ascii "execute-candidate"
  dependsOn := [phaseId (units+2)]

theorem next_at {n : Nat} (h : 0<n) (hl : n+1<2^64) :
    (⟨UInt64.ofNat n⟩ : IdAllocator .phase).next=(phaseId n,⟨UInt64.ofNat (n+1)⟩) := by
  have hn : (UInt64.ofNat n).toNat=n := UInt64.toNat_ofNat_of_lt' (show n<2^64 by omega)
  have hzero : UInt64.ofNat n ≠ 0 := by
    intro he
    rw [he] at hn
    rw [← hn] at h
    exact absurd h (by decide)
  have hmax : UInt64.ofNat n ≠ IdAllocator.kMax := by
    intro he
    rw [he] at hn
    have hk : IdAllocator.kMax.toNat=2^64-1 := rfl
    omega
  simp only [IdAllocator.next,if_neg hzero,if_neg hmax,phaseId,UInt64.ofNat_add]
  rfl

theorem compileNodes_eq {first : Nat} (h : first+units+3<2^64) :
    compileNodes (phaseId 1) units first ⟨UInt64.ofNat (first+2)⟩=
      ((List.range' first units).map compileNode,⟨UInt64.ofNat (first+units+2)⟩) := by
  induction units generalizing first with
  | zero => rfl
  | succ units ih =>
    have hrest := @ih (first+1) (by omega)
    rw [compileNodes,next_at (by omega) (by omega)]
    dsimp only
    rw [show first+2+1=first+1+2 by omega,hrest,show first+1+units+2=first+(units+1)+2 by omega]
    rfl

theorem planNodes_eq (h : units ≤ kMaxUnits) : planNodes units wantSmokeTest=
    validateNode::(List.range units).map compileNode++
      linkNode units::if wantSmokeTest then [finalizeNode units] else [] := by
  have hlt : units ≤ 64 := h
  have hfirst : ({} : IdAllocator .phase).next=(phaseId 1,⟨UInt64.ofNat 2⟩) := rfl
  have hcompile := @compileNodes_eq units 0 (by omega)
  rw [Nat.zero_add,Nat.zero_add] at hcompile
  rw [planNodes,hfirst]
  dsimp only
  rw [hcompile]
  dsimp only
  rw [next_at (n := units+2) (by omega) (by omega)]
  dsimp only
  rw [next_at (n := units+2+1) (by omega) (by omega),List.map_map,List.length_map,
    List.length_range',← List.range_eq_range']
  rfl

theorem mem_planNodes (h : units ≤ kMaxUnits) : node ∈ planNodes units wantSmokeTest ↔
    node=validateNode ∨ (∃ i<units,node=compileNode i) ∨ node=linkNode units ∨
      wantSmokeTest ∧ node=finalizeNode units := by
  rw [planNodes_eq h]
  cases wantSmokeTest <;>
    simp [List.mem_map,eq_comm (a := node)]

theorem phaseId_toNat {n : Nat} (h : n<2^64) : (phaseId n).value.toNat=n := UInt64.toNat_ofNat_of_lt' h

theorem phaseId_inj {m n : Nat} (hm : m<2^64) (hn : n<2^64) : phaseId m=phaseId n ↔ m=n := by
  rw [phaseId,phaseId,StrongId.mk.injEq,← UInt64.toNat_inj,UInt64.toNat_ofNat_of_lt' hm,
    UInt64.toNat_ofNat_of_lt' hn]

/-- Every phase is numbered, and depends on lower numbers. -/
theorem numbered (h : units ≤ kMaxUnits) (hn : node ∈ planNodes units wantSmokeTest) :
    ∃ n,1 ≤ n ∧ n ≤ units+3 ∧ node.id=phaseId n ∧
      ∀ dependency ∈ node.dependsOn,∃ m,m<n ∧ dependency=phaseId m ∧
        ∃ other ∈ planNodes units wantSmokeTest,other.id=dependency := by
  have hvalidate := (@mem_planNodes _ wantSmokeTest _ h).2 (.inl rfl)
  have hcompile {i : Nat} (hi : i<units) :=
    (@mem_planNodes _ wantSmokeTest _ h).2 (.inr (.inl ⟨i,hi,rfl⟩))
  have hlink := (@mem_planNodes _ wantSmokeTest _ h).2 (.inr (.inr (.inl rfl)))
  rcases (mem_planNodes h).1 hn with rfl | ⟨i,hi,rfl⟩ | rfl | ⟨_,rfl⟩
  · exact ⟨1,by omega,by omega,rfl,fun _ hd => absurd hd List.not_mem_nil⟩
  · refine ⟨i+2,by omega,by omega,rfl,fun d hd => ?_⟩
    exact ⟨1,by omega,List.mem_singleton.1 hd,_,hvalidate,(List.mem_singleton.1 hd).symm⟩
  · refine ⟨units+2,by omega,by omega,rfl,fun d hd => ?_⟩
    obtain ⟨i,hi,rfl⟩ := List.mem_map.1 hd
    have hi := List.mem_range.1 hi
    exact ⟨i+2,by omega,rfl,_,hcompile hi,rfl⟩
  · refine ⟨units+3,by omega,by omega,rfl,fun d hd => ?_⟩
    exact ⟨units+2,by omega,List.mem_singleton.1 hd,_,hlink,(List.mem_singleton.1 hd).symm⟩

theorem planNodes_ids (h : units ≤ kMaxUnits) : (planNodes units wantSmokeTest).map (·.id)=
    (List.range' 1 (units+if wantSmokeTest then 3 else 2)).map phaseId := by
  have hcompile : (List.range units).map (fun i => phaseId (i+2))=(List.range' 2 units).map phaseId := by
    rw [List.range'_eq_map_range,List.map_map]
    exact List.map_congr_left fun i _ => congrArg phaseId (Nat.add_comm i 2)
  have hmap : ((List.range units).map compileNode).map (·.id)=(List.range' 2 units).map phaseId := by
    rw [← hcompile,List.map_map]
    rfl
  rw [planNodes_eq h,List.map_append,List.map_cons,List.map_cons,hmap]
  cases wantSmokeTest
  · rw [if_neg Bool.false_ne_true,if_neg Bool.false_ne_true,List.range'_succ,List.range'_concat]
    simp [validateNode,linkNode,Nat.add_comm]
  · rw [if_pos rfl,if_pos rfl,List.range'_succ,List.range'_concat,List.range'_concat]
    simp [validateNode,linkNode,finalizeNode,Nat.add_comm]

theorem planNodes_distinct (h : units ≤ kMaxUnits) :
    ((planNodes units wantSmokeTest).map (·.id)).Nodup := by
  have hlt : units ≤ 64 := h
  have hlast : (if wantSmokeTest then 3 else 2) ≤ 3 := by split <;> decide
  have hrange : (List.range' 1 (units+if wantSmokeTest then 3 else 2)).Nodup := List.nodup_range'
  rw [planNodes_ids h]
  refine hrange.map_on ?_
  intro m hm n hn he
  rw [List.mem_range'_1] at hm hn
  exact (phaseId_inj (by omega) (by omega)).1 he

/-- The phase everything in the plan is for. -/
def lastNode (units : Nat) (wantSmokeTest : Bool) : PhaseNode :=
  if wantSmokeTest then finalizeNode units else linkNode units

theorem lastNode_mem (h : units ≤ kMaxUnits) :
    lastNode units wantSmokeTest ∈ planNodes units wantSmokeTest := by
  rw [mem_planNodes h,lastNode]
  split
  · next hw => exact .inr (.inr (.inr ⟨hw,rfl⟩))
  · exact .inr (.inr (.inl rfl))

open PlanData

/-- Everything leads to the last phase. -/
theorem lastNode_reaches (h : units ≤ kMaxUnits) (hu : 0<units)
    (hn : node ∈ planNodes units wantSmokeTest) :
    Relation.ReflTransGen (Needs (planNodes units wantSmokeTest)) (lastNode units wantSmokeTest).id
      node.id := by
  have hcompile {i : Nat} (hi : i<units) :=
    (@mem_planNodes _ wantSmokeTest _ h).2 (.inr (.inl ⟨i,hi,rfl⟩))
  have hlink := (@mem_planNodes _ wantSmokeTest _ h).2 (.inr (.inr (.inl rfl)))
  have tolink : Relation.ReflTransGen (Needs (planNodes units wantSmokeTest))
      (lastNode units wantSmokeTest).id (linkNode units).id := by
    rw [lastNode]
    split
    · next hw =>
      refine .single ⟨finalizeNode units,(mem_planNodes h).2 (.inr (.inr (.inr ⟨hw,rfl⟩))),rfl,?_⟩
      exact List.mem_singleton.2 rfl
    · exact .refl
  have tounit {i : Nat} (hi : i<units) := tolink.tail ⟨linkNode units,hlink,rfl,
    List.mem_map.2 ⟨i,List.mem_range.2 hi,rfl⟩⟩
  rcases (mem_planNodes h).1 hn with rfl | ⟨i,hi,rfl⟩ | rfl | ⟨hw,rfl⟩
  · exact (tounit hu).tail ⟨compileNode 0,hcompile hu,rfl,List.mem_singleton.2 rfl⟩
  · exact tounit hi
  · exact tolink
  · rw [lastNode,if_pos hw]

theorem lastNode_final (h : units ≤ kMaxUnits) :
    Final (planNodes units wantSmokeTest) (lastNode units wantSmokeTest) := by
  have hlt : units ≤ 64 := h
  have hlast : ∃ n,n ≤ units+3 ∧ (lastNode units wantSmokeTest).id=phaseId n ∧
      (wantSmokeTest → n=units+3) ∧ units+2 ≤ n := by
    rw [lastNode]
    split
    · exact ⟨units+3,Nat.le_refl _,rfl,fun _ => rfl,by omega⟩
    · next hw => exact ⟨units+2,by omega,rfl,fun hw' => absurd hw' hw,Nat.le_refl _⟩
  obtain ⟨n,hn,hid,hw,hle⟩ := hlast
  intro other ho hd
  rw [hid] at hd
  rcases (mem_planNodes h).1 ho with rfl | ⟨i,hi,rfl⟩ | rfl | ⟨hs,rfl⟩
  · cases hd
  · have he := (phaseId_inj (by omega) (by omega)).1 (List.mem_singleton.1 hd)
    omega
  · obtain ⟨i,hi,he⟩ := List.mem_map.1 hd
    have hi := List.mem_range.1 hi
    have he := (phaseId_inj (by omega) (by omega)).1 he
    omega
  · have he := (phaseId_inj (by omega) (by omega)).1 (List.mem_singleton.1 hd)
    have := hw hs
    omega

theorem needs_lower {a b : CompilerPhaseId} (h : units ≤ kMaxUnits)
    (hn : Needs (planNodes units wantSmokeTest) a b) : b.value.toNat<a.value.toNat := by
  have hlt : units ≤ 64 := h
  obtain ⟨node,hm,rfl,hd⟩ := hn
  obtain ⟨n,_,hle,hid,hdeps⟩ := numbered h hm
  obtain ⟨m,hmn,rfl,_⟩ := hdeps b hd
  rw [hid,phaseId_toNat (by omega),phaseId_toNat (by omega)]
  exact hmn

theorem planNodes_sensible (h : units ≤ kMaxUnits) (hu : 0<units) :
    Sensible (planNodes units wantSmokeTest) := by
  have hlt : units ≤ 64 := h
  refine ⟨List.ne_nil_of_mem (lastNode_mem h),?_,?_,planNodes_distinct h,?_,?_,?_,?_⟩
  · have hl := congrArg List.length (@planNodes_ids units wantSmokeTest h)
    have hlast : (if wantSmokeTest then 3 else 2) ≤ 3 := by split <;> decide
    rw [List.length_map,List.length_map,List.length_range'] at hl
    rw [hl]
    show _ ≤ 4096
    omega
  · intro node hn
    obtain ⟨n,hpos,hle,hid,_⟩ := numbered h hn
    rw [hid,StrongId.present,decide_eq_true_eq,Ne,← UInt64.toNat_inj,phaseId_toNat (by omega)]
    exact Nat.ne_of_gt hpos
  · intro node hn d hd
    obtain ⟨_,_,_,_,hdeps⟩ := numbered h hn
    obtain ⟨_,_,_,other,ho,he⟩ := hdeps d hd
    exact he ▸ List.mem_map_of_mem ho
  · -- an edge leads to a lower number
    have hlower {a b : CompilerPhaseId} (hn : Relation.TransGen (Needs (planNodes units wantSmokeTest)) a b) :
        b.value.toNat<a.value.toNat := by
      induction hn with
      | single hn => exact needs_lower h hn
      | tail _ hn ih => exact (needs_lower h hn).trans ih
    exact fun id hc => Nat.lt_irrefl _ (hlower hc)
  · intro node hn hf
    rcases (mem_planNodes h).1 hn with rfl | ⟨i,hi,rfl⟩ | rfl | ⟨_,rfl⟩
    · cases hf
    · cases hf
    · have hunits : (UInt64.ofNat units).toNat=units :=
        UInt64.toNat_ofNat_of_lt' (show units<2^64 by omega)
      show 1 ≤ (UInt64.ofNat units).toNat ∧ (UInt64.ofNat units).toNat ≤ ((List.range units).map _).length
      rw [hunits,List.length_map,List.length_range]
      exact ⟨hu,Nat.le_refl _⟩
    · cases hf
  · intro node hn
    refine ⟨_,lastNode_mem h,?_,lastNode_final h,lastNode_reaches h hu hn⟩
    rw [lastNode]
    split <;> rfl

theorem planNodes_build (h : units ≤ kMaxUnits) (hu : 0<units) :
    ∃ plan,PhasePlan.build (planNodes units wantSmokeTest)=.ok plan := by
  have hs := @planNodes_sensible units wantSmokeTest h hu
  have hsingle : ∃ sink ∈ planNodes units wantSmokeTest,∀ node ∈ planNodes units wantSmokeTest,
      Final (planNodes units wantSmokeTest) node ↔ node=sink := by
    refine ⟨_,lastNode_mem h,fun node hn => ⟨fun hf => ?_,fun he => he ▸ lastNode_final h⟩⟩
    rcases (lastNode_reaches h hu hn).cases_tail with he | ⟨_,_,other,ho,_,hd⟩
    · exact eq_of_id hs.distinct hn (lastNode_mem h) he
    · exact absurd hd (hf other ho)
  obtain ⟨d,hd⟩ := hs.build_iff.2 hsingle
  cases hb : PhasePlan.build (planNodes units wantSmokeTest) with
  | ok plan => exact ⟨plan,rfl⟩
  | error e =>
    unfold PhasePlan.build at hb
    split at hb
    · next he =>
      rw [hd] at he
      cases he
    · cases hb

/-- The adapter plans every session of up to 64 units, and no other. -/
theorem buildPlan_iff (request : PhasePlanRequest) :
    (∃ plan,buildPlan request=.ok plan) ↔ request.translationUnitCount ≤ kMaxUnits := by
  have hmax : max 1 request.translationUnitCount ≤ kMaxUnits ↔
      request.translationUnitCount ≤ kMaxUnits := by
    show max 1 _ ≤ 64 ↔ _ ≤ 64
    omega
  rw [buildPlan]
  split
  · next hlt =>
    have hover := mt hmax.2 (Nat.not_le.2 hlt)
    refine ⟨?_,fun h => absurd h hover⟩
    rintro ⟨_,⟨⟩⟩
  · next hle =>
    have hle := Nat.not_lt.1 hle
    exact ⟨fun _ => hmax.1 hle,fun _ => planNodes_build hle (Nat.le_max_left 1 _)⟩

end MsvcAdapter

namespace Runtime

variable {w : World} {rt t : Runtime} {request : CompileRequest} {parts : SessionParts}
  {sid : CompilerSessionId} {s : CompilerSession} {reference : Ref .source}
  {refs : List (Ref .source)} {file : Result SourceUnit} {files : List (Result SourceUnit)}

/-- A quiet part of a call leaves every source registered. -/
theorem grows_of {α : Type} {x : Op α} {result : Result α} (hx : Within Quiet x)
    (h : x rt=(result,t)) : rt.sources.Grows t.sources := by
  have hq := hx rt
  rw [h] at hq
  exact hq.sources

theorem addSource_found (h : addSource file rt=(.ok reference,t)) :
    (t.sources.find reference.id).isSome := by
  obtain ⟨unit,sources,-,hadd,rfl⟩ := addSource_ok h
  obtain ⟨rfl,rfl⟩ := SourceRegistry.add_ok hadd
  show ((rt.sources.entries.insertIfNew _ _)[_]?).isSome
  rw [← Std.ExtTreeMap.mem_iff_isSome_getElem?,Std.ExtTreeMap.mem_insertIfNew]
  exact .inl Std.ReflCmp.compare_self

theorem addSources_found (h : addSources files rt=(.ok refs,t)) :
    ∀ reference ∈ refs,(t.sources.find reference.id).isSome := by
  induction files generalizing rt refs with
  | nil =>
    cases h
    exact fun _ h => absurd h List.not_mem_nil
  | cons file rest ih =>
    obtain ⟨reference,t₁,h₁,h⟩ := seq_eq_ok.1 h
    obtain ⟨others,t₂,h₂,h⟩ := seq_eq_ok.1 h
    cases h
    intro x hx
    rcases List.mem_cons.1 hx with rfl | hx
    · obtain ⟨u,hu⟩ := Option.isSome_iff_exists.1 (addSource_found h₁)
      rw [grows_of (addSources_within rest) h₂ _ u hu]
      rfl
    · exact ih h₂ x hx

/-- The plan of a new session is made of the adapter's, and its sources are registered: one for each
path and each text of the request. -/
theorem sessionParts_driven (h : sessionParts w request rt=(.ok parts,t)) :
    ∃ plan a,w.localPlan=.ok plan ∧
      PhasePlan.build (plan.nodes.map (remapNode (remapIds plan.nodes a).1))=.ok parts.plan ∧
      parts.sources.length=request.sources.length+request.inlineSources.length ∧
      0<parts.sources.length ∧ ∀ reference ∈ parts.sources,(t.sources.find reference.id).isSome := by
  have on {α : Type} {x : Op α} {r s v : Runtime} {result : Result α}
      (ha : r.sources.Grows s.sources) (hx : Within Quiet x) (he : x s=(result,v)) :
      r.sources.Grows v.sources := IsTrans.trans _ _ _ ha (grows_of hx he)
  obtain ⟨_,t₀,h₀,h⟩ := seq_eq_ok.1 h
  cases h₀
  obtain ⟨_,t₁,h₁,h⟩ := seq_eq_ok.1 h
  obtain ⟨_,t₂,h₂,h⟩ := seq_eq_ok.1 h
  obtain ⟨_,t₃,h₃,h⟩ := seq_eq_ok.1 h
  obtain ⟨_,t₄,h₄,h⟩ := seq_eq_ok.1 h
  obtain ⟨_,t₅,h₅,h⟩ := seq_eq_ok.1 h
  obtain ⟨_,t₆,h₆,h⟩ := seq_eq_ok.1 h
  obtain ⟨_,t₇,h₇,h⟩ := seq_eq_ok.1 h
  obtain ⟨plain,t₈,h₈,h⟩ := seq_eq_ok.1 h
  obtain ⟨_,t₉,h₉,h⟩ := seq_eq_ok.1 h
  obtain ⟨_,t₁₀,h₁₀,h⟩ := seq_eq_ok.1 h
  obtain ⟨_,t₁₁,h₁₁,h⟩ := seq_eq_ok.1 h
  obtain ⟨_,t₁₂,h₁₂,h⟩ := seq_eq_ok.1 h
  obtain ⟨_,t₁₃,h₁₃,h⟩ := seq_eq_ok.1 h
  obtain ⟨plan,t₁₄,h₁₄,h⟩ := seq_eq_ok.1 h
  obtain ⟨remap,t₁₅,h₁₅,h⟩ := seq_eq_ok.1 h
  obtain ⟨_,t₁₆,h₁₆,h⟩ := seq_eq_ok.1 h
  obtain ⟨_,t₁₇,h₁₇,h⟩ := seq_eq_ok.1 h
  obtain ⟨_,t₁₈,h₁₈,h⟩ := seq_eq_ok.1 h
  obtain ⟨staged,t₁₉,h₁₉,h⟩ := seq_eq_ok.1 h
  have hremap : (remapIds plan.nodes t₁₄.phaseIds).1=remap := Except.ok.inj (congrArg Prod.fst h₁₅)
  have hlength : (plain++staged).length=request.sources.length+request.inlineSources.length := by
    rw [List.length_append,addSources_length h₈,addSources_length h₁₉]
    simp [filesOf]
  have hsome := ensure_ok.1 (ofExcept_eq_ok.1 h₃).1
  cases h
  subst hremap
  refine ⟨plan,t₁₄.phaseIds,(ofExcept_eq_ok.1 h₁₄).1,(ofExcept_eq_ok.1 h₁₆).1,hlength,?_,?_⟩
  · rw [hlength]
    refine Nat.pos_of_ne_zero fun hz => hsome ?_
    obtain ⟨hs,hi⟩ := Nat.add_eq_zero_iff.1 hz
    exact ⟨List.length_eq_zero_iff.1 hs,List.length_eq_zero_iff.1 hi⟩
  · intro reference hr
    rcases List.mem_append.1 hr with hr | hr
    · obtain ⟨u,hu⟩ := Option.isSome_iff_exists.1 (addSources_found h₈ reference hr)
      have hattempt : Within Quiet (requestedAttempt request) := by
        unfold requestedAttempt
        split
        · exact .pure _
        · exact nextAttempt_within
      have a₁₁ := on (on (on (Std.Refl.refl t₈.sources) (addSources_within _) h₉) (.ofExcept _) h₁₀)
        (.ofExcept _) h₁₁
      have a₁₃ := on (on a₁₁ (onEnvironments_within _) h₁₂)
        (onPolicies_within fun _ _ _ => SpecRegistry.internWith_advances) h₁₃
      have a₁₆ := on (on (on a₁₃ (.ofExcept _) h₁₄) (nextPhases_within _) h₁₅) (.ofExcept _) h₁₆
      have a₁₈ := on (on a₁₆ nextSession_within h₁₇) hattempt h₁₈
      have hshow := on a₁₈ (addSources_within _) h₁₉
      rw [hshow _ u hu]
      rfl
    · exact addSources_found h₁₉ reference hr

/-- A session that a call of `create_session` adds runs the adapter's plan, under identities of its
own. -/
theorem createSession_driven (hn : rt.find sid=none)
    (hs : (createSession w request rt).2.find sid=some s) :
    ∃ plan f,w.localPlan=.ok plan ∧ PlanData.Renames f plan.nodes ∧
      s.plan.toPlanData=plan.toPlanData.renamed f ∧
      s.phases=emplacePhases (s.plan.nodes.map (initialPhase s.attemptGeneration)) ∧
      s.sources.length=request.sources.length+request.inlineSources.length ∧ 0<s.sources.length ∧
      ∀ reference ∈ s.sources,
        ((createSession w request rt).2.sources.find reference.id).isSome := by
  obtain ⟨parts,t,ht,_,rfl,hsources⟩ := createSession_new hn hs
  obtain ⟨plan,a,hlocal,hbuild,hlength,hpos,hfound⟩ := sessionParts_driven ht
  have hne : plan.nodes ≠ [] := by
    intro he
    rw [he] at hbuild
    exact (PlanData.build_ok_iff.1 (PhasePlan.build_ok.1 hbuild)).1 rfl
  obtain ⟨hrenames,hplan⟩ := (build_remapNode_iff hne).1 hbuild
  rw [hsources]
  exact ⟨plan,_,hlocal,hrenames,hplan,rfl,hlength,hpos,hfound⟩

end Runtime

theorem getElem?_filterMap {α β : Type} {g : α → Option β} {l : List α}
    (h : ∀ x ∈ l,(g x).isSome) (i : Nat) : (l.filterMap g)[i]?=l[i]?.bind g := by
  induction l generalizing i with
  | nil => rfl
  | cons x l ih =>
    obtain ⟨y,hy⟩ := Option.isSome_iff_exists.1 (h x List.mem_cons_self)
    rw [List.filterMap_cons_some hy]
    cases i with
    | zero => exact hy.symm
    | succ i => exact ih (fun z hz => h z (List.mem_cons_of_mem _ hz)) i

theorem findPhase_of_phases {s : CompilerSession} {attempt : AttemptGeneration}
    (h : s.phases=emplacePhases (s.plan.nodes.map (initialPhase attempt))) (pid : CompilerPhaseId) :
    s.findPhase pid=(s.plan.find pid).map (initialPhase attempt) := by
  rw [CompilerSession.findPhase,h,emplacePhases_getElem?,List.find?_map,PhasePlan.find]
  refine congrArg (Option.map _) (congrArg (List.find? · s.plan.nodes) (funext fun node => ?_))
  exact decide_eq_decide.2 StrongId.ext_iff.symm

namespace MsvcAdapter

theorem elim_refuse_ok {α : Type} {x : Option α} {code : StatusCode} {text : String} {a : α} :
    (x.elim (refuse code text) .ok : Result α)=.ok a ↔ x=some a := by
  cases x with
  | none => exact ⟨fun h => (by cases h),fun h => (by cases h)⟩
  | some b => simp

/-- What the invocation of a compile phase is made of. -/
theorem compileInvocation_ok {host : Host} {request : PhaseExecutionRequest}
    {compiler : ComponentIdentity} {before spec : InvocationSpec}
    (h : compileInvocation host request compiler before=.ok spec) :
    ∃ i unit,parsePhaseIndex request.adapterPhase=some i ∧ request.sources[i]?=some unit ∧
      spec.inputs=[boundUnit unit] ∧ spec.arguments.getLast?=some unit.path := by
  simp only [compileInvocation,do_eq_ok,elim_refuse_ok] at h
  obtain ⟨i,hi,unit,hu,object,_,he⟩ := h
  cases he
  exact ⟨i,unit,hi,hu,rfl,rfl⟩

theorem buildInvocation_compile {host : Host} {request : PhaseExecutionRequest} {spec : InvocationSpec}
    (hk : request.kind=.codegen) (h : buildInvocation host request=.ok spec) :
    ∃ i unit,parsePhaseIndex request.adapterPhase=some i ∧ request.sources[i]?=some unit ∧
      spec.inputs=[boundUnit unit] ∧ spec.arguments.getLast?=some unit.path := by
  simp only [buildInvocation,do_eq_ok,hk] at h
  obtain ⟨compiler,_,_,_,h⟩ := h
  exact compileInvocation_ok h

theorem executionRequest_ok {rt : Runtime} {s : CompilerSession} {p : PhaseRecord}
    {workspace : Workspace} {request : PhaseExecutionRequest}
    (h : rt.executionRequest s p workspace=.ok request) :
    request.kind=p.kind ∧ request.adapterPhase=p.adapterPhase ∧
      request.sources=(s.sources.filterMap fun reference => rt.sources.find reference.id) ∧
      request.resolvedInputs=p.inputs ∧ request.artifacts=rt.artifacts := by
  simp only [Runtime.executionRequest,do_eq_ok] at h
  obtain ⟨_,_,toolchain,_,he⟩ := h
  cases he
  exact ⟨rfl,rfl,rfl,rfl,rfl⟩

theorem parsePhaseIndex_unit {i n : Nat} (hi : i<n) (hn : n ≤ kMaxUnits) :
    parsePhaseIndex (compileName i)=some i := by
  have hlt : n ≤ 64 := hn
  exact parsePhaseIndex_compileName (by omega)

/-- The invocation of the phase that compiles the `i`-th source names that source. -/
theorem unit_invocation {rt : Runtime} {s : CompilerSession} {p : PhaseRecord} {i : Nat}
    {reference : Ref .source} {unit : SourceUnit} (hle : s.sources.length ≤ kMaxUnits)
    (hfound : ∀ reference ∈ s.sources,(rt.sources.find reference.id).isSome)
    (hp : p.role=(.codegen,compileName i)) (hi : s.sources[i]?=some reference)
    (hu : rt.sources.find reference.id=some unit) {host : Host} {workspace : Workspace}
    {request : PhaseExecutionRequest} {spec : InvocationSpec}
    (hreq : rt.executionRequest s p workspace=.ok request)
    (hspec : buildInvocation host request=.ok spec) :
    spec.inputs=[boundUnit unit] ∧ spec.arguments.getLast?=some unit.path := by
  have hlt := (List.getElem?_eq_some_iff.1 hi).1
  obtain ⟨hk,ha⟩ := Prod.mk.inj hp
  obtain ⟨hkind,hname,hsources,_⟩ := executionRequest_ok hreq
  obtain ⟨j,compiled,hj,hcompiled,hinputs,hargs⟩ := buildInvocation_compile (hkind.trans hk) hspec
  rw [hname,ha,parsePhaseIndex_unit hlt hle] at hj
  cases hj
  rw [hsources,getElem?_filterMap hfound,hi,Option.bind_some,hu] at hcompiled
  cases hcompiled
  exact ⟨hinputs,hargs⟩

/-- Each source of the session has a phase that compiles it, and no other phase compiles; one phase
links, and waits for all of them. -/
structure Drives (rt : Runtime) (s : CompilerSession) (compile : Nat → CompilerPhaseId)
    (link : CompilerPhaseId) : Prop where
  apart : ∀ i<s.sources.length,∀ j<s.sources.length,compile i=compile j → i=j
  only : ∀ pid p,s.findPhase pid=some p →
    (p.kind=.codegen ↔ ∃ i<s.sources.length,pid=compile i)
  links : ∀ pid p,s.findPhase pid=some p → (p.kind=.link ↔ pid=link)
  unit : ∀ (i : Nat) reference,s.sources[i]?=some reference → ∃ p unit,
    s.findPhase (compile i)=some p ∧ p.adapterPhase=compileName i ∧
    rt.sources.find reference.id=some unit ∧
    ∀ host workspace request spec,rt.executionRequest s p workspace=.ok request →
      buildInvocation host request=.ok spec →
      spec.inputs=[boundUnit unit] ∧ spec.arguments.getLast?=some unit.path
  joined : ∃ node,s.plan.find link=some node ∧ node.kind=.link ∧ node.fanIn ∧
    node.dependsOn=(List.range s.sources.length).map compile ∧
    node.requiredInputs.toNat=s.sources.length

theorem Drives.found {rt : Runtime} {s : CompilerSession} {compile : Nat → CompilerPhaseId}
    {link : CompilerPhaseId} (h : Drives rt s compile link) :
    ∀ reference ∈ s.sources,∃ unit,rt.sources.find reference.id=some unit := by
  intro reference hr
  obtain ⟨i,hi⟩ := List.mem_iff_getElem?.1 hr
  obtain ⟨_,unit,_,_,hu,_⟩ := h.unit i reference hi
  exact ⟨unit,hu⟩

/-- It goes on as the phases move and sources are added. -/
theorem Drives.later {rt t : Runtime} {s s' : CompilerSession} {compile : Nat → CompilerPhaseId}
    {link : CompilerPhaseId} {σ : SessionState → SessionState → Prop}
    (h : Drives rt s compile link) (hle : s.sources.length ≤ kMaxUnits)
    (he : CompilerSession.Evolves σ PhaseRecord.Follows s s') (hg : rt.sources.Grows t.sources) :
    Drives t s' compile link := by
  have hplan : s'.plan=s.plan := congrArg (·.2.1) he.binding
  have hfound : ∀ reference ∈ s'.sources,(t.sources.find reference.id).isSome := by
    rw [he.sources]
    intro reference hr
    obtain ⟨unit,hu⟩ := h.found reference hr
    rw [hg _ unit hu]
    rfl
  constructor
  · rw [he.sources]
    exact h.apart
  · intro pid q hq
    obtain ⟨p,hp,hf⟩ := he.before hq
    have hkind : q.kind=p.kind := congrArg (·.1) hf.1
    rw [he.sources,hkind]
    exact h.only pid p hp
  · intro pid q hq
    obtain ⟨p,hp,hf⟩ := he.before hq
    have hkind : q.kind=p.kind := congrArg (·.1) hf.1
    rw [hkind]
    exact h.links pid p hp
  · intro i reference hi
    have hi₀ : s.sources[i]?=some reference := he.sources ▸ hi
    obtain ⟨p,unit,hp,hname,hu,_⟩ := h.unit i reference hi₀
    obtain ⟨q,hq,hf⟩ := he.after hp
    have hlt := (List.getElem?_eq_some_iff.1 hi₀).1
    have hkind : p.kind=.codegen := (h.only _ p hp).2 ⟨i,hlt,rfl⟩
    have hrole : q.role=(.codegen,compileName i) := by
      rw [hf.1,PhaseRecord.role,hkind,hname]
    refine ⟨q,unit,hq,congrArg (·.2) hrole,hg _ unit hu,?_⟩
    intro host workspace request spec hreq hspec
    exact unit_invocation (he.sources ▸ hle) hfound hrole hi (hg _ unit hu) hreq hspec
  · rw [hplan,he.sources]
    exact h.joined

theorem buildPlan_nodes {request : PhasePlanRequest} {plan : PhasePlan}
    (h : buildPlan request=.ok plan) : max 1 request.translationUnitCount ≤ kMaxUnits ∧
      plan.nodes=planNodes (max 1 request.translationUnitCount) request.wantSmokeTest := by
  unfold buildPlan at h
  dsimp only at h
  split at h
  · cases h
  · next hle => exact ⟨Nat.not_lt.1 hle,PlanData.build_nodes (PhasePlan.build_ok.1 h)⟩

theorem drives_of_createSession {w : World} {request : CompileRequest} {rt : Runtime}
    {sid : CompilerSessionId} {s : CompilerSession}
    (hplan : w.localPlan=buildPlan {
      translationUnitCount := request.sources.length+request.inlineSources.length
      wantSmokeTest := request.runSmokeTest })
    (hn : rt.find sid=none) (hs : (Runtime.createSession w request rt).2.find sid=some s) :
    s.sources.length=request.sources.length+request.inlineSources.length ∧
      s.sources.length ≤ kMaxUnits ∧
      ∃ compile link,Drives (Runtime.createSession w request rt).2 s compile link := by
  obtain ⟨plan,f,hlocal,hf,hdata,hphases,hlength,hpos,hfound⟩ := Runtime.createSession_driven hn hs
  obtain ⟨hle,hnodes⟩ := buildPlan_nodes (hplan.symm.trans hlocal)
  generalize (Runtime.createSession w request rt).2=t at hfound ⊢
  have hunits : max 1 (request.sources.length+request.inlineSources.length)=s.sources.length := by
    rw [← hlength]
    omega
  rw [hunits] at hle hnodes
  generalize hcount : s.sources.length=units at hle hnodes hpos
  have hlt : units ≤ 64 := hle
  have hid {node : PhaseNode} (hm : node ∈ planNodes units request.runSmokeTest) :
      node.id ∈ {}::plan.nodes.map (·.id) :=
    List.mem_cons_of_mem _ (hnodes ▸ List.mem_map_of_mem hm)
  have hcompile {i : Nat} (hi : i<units) :=
    (@mem_planNodes _ request.runSmokeTest _ hle).2 (.inr (.inl ⟨i,hi,rfl⟩))
  have hlink := (@mem_planNodes _ request.runSmokeTest _ hle).2 (.inr (.inr (.inl rfl)))
  have hsnodes : s.plan.nodes=(planNodes units request.runSmokeTest).map (PhaseNode.renamed f) := by
    rw [← hnodes]
    exact congrArg PlanData.nodes hdata
  have hdistinct : (s.plan.nodes.map (·.id)).Nodup := by
    rw [hsnodes,PlanData.renamed_ids]
    refine (planNodes_distinct hle).map_on fun a ha b hb => ?_
    obtain ⟨x,hx,rfl⟩ := List.mem_map.1 ha
    obtain ⟨y,hy,rfl⟩ := List.mem_map.1 hb
    exact hf.apart _ (hid hx) _ (hid hy)
  have hfind {node : PhaseNode} (hm : node ∈ planNodes units request.runSmokeTest) :
      s.plan.find (f node.id)=some (node.renamed f) :=
    @PlanData.find_of_mem _ (node.renamed f) hdistinct (hsnodes ▸ List.mem_map_of_mem hm)
  have hphase := findPhase_of_phases hphases
  have hmade {node : PhaseNode} (hm : node ∈ planNodes units request.runSmokeTest) :=
    (hphase (f node.id)).trans (congrArg _ (hfind hm))
  have hnode {pid : CompilerPhaseId} {p : PhaseRecord} (hp : s.findPhase pid=some p) :
      ∃ node ∈ planNodes units request.runSmokeTest,f node.id=pid ∧ p.kind=node.kind := by
    rw [hphase] at hp
    obtain ⟨node,hnode,rfl⟩ := Option.map_eq_some_iff.1 hp
    have hnode : s.plan.nodes.find? (·.id=pid)=some node := hnode
    have hmem := List.mem_of_find?_eq_some hnode
    have hpid : node.id=pid := by simpa using List.find?_some hnode
    rw [hsnodes] at hmem
    obtain ⟨node,hm,rfl⟩ := List.mem_map.1 hmem
    exact ⟨node,hm,hpid,rfl⟩
  refine ⟨hcount ▸ hlength,hcount ▸ hle,fun i => f (phaseId (i+2)),f (phaseId (units+2)),?_,?_,?_,?_,?_⟩
  · rw [hcount]
    intro i hi j hj he
    have he := hf.apart _ (hid (hcompile hi)) _ (hid (hcompile hj)) he
    have he := (phaseId_inj (by omega) (by omega)).1 he
    omega
  · rw [hcount]
    intro pid p hp
    constructor
    · intro hk
      obtain ⟨node,hm,hpid,hkind⟩ := hnode hp
      rw [hk] at hkind
      rcases (mem_planNodes hle).1 hm with rfl | ⟨i,hi,rfl⟩ | rfl | ⟨_,rfl⟩
      · cases hkind
      · exact ⟨i,hi,hpid.symm⟩
      · cases hkind
      · cases hkind
    · rintro ⟨i,hi,rfl⟩
      cases hp.symm.trans (hmade (hcompile hi))
      rfl
  · intro pid p hp
    constructor
    · intro hk
      obtain ⟨node,hm,hpid,hkind⟩ := hnode hp
      rw [hk] at hkind
      rcases (mem_planNodes hle).1 hm with rfl | ⟨i,hi,rfl⟩ | rfl | ⟨_,rfl⟩
      · cases hkind
      · cases hkind
      · exact hpid.symm
      · cases hkind
    · rintro rfl
      cases hp.symm.trans (hmade hlink)
      rfl
  · intro i reference hi
    have hiu : i<units := hcount ▸ (List.getElem?_eq_some_iff.1 hi).1
    obtain ⟨unit,hunit⟩ := Option.isSome_iff_exists.1 (hfound reference (List.mem_of_getElem? hi))
    refine ⟨_,unit,hmade (hcompile hiu),rfl,hunit,fun host workspace request spec hreq hspec => ?_⟩
    exact unit_invocation (hcount ▸ hle) hfound rfl hi hunit hreq hspec
  · rw [hcount]
    refine ⟨_,hfind hlink,rfl,rfl,List.map_map,?_⟩
    exact UInt64.toNat_ofNat_of_lt' (show units<2^64 by omega)

theorem Drives.run {sys : System} {sid : CompilerSessionId} {s : CompilerSession}
    {compile : Nat → CompilerPhaseId} {link : CompilerPhaseId} {events : List Event}
    (h : Drives sys.rt s compile link) (hle : s.sources.length ≤ kMaxUnits)
    (hs : sys.rt.find sid=some s) (he : ∀ e ∈ events,e.inProcess) :
    ∃ s',(sys.run events).rt.find sid=some s' ∧ s'.sources=s.sources ∧
      Drives (sys.run events).rt s' compile link := by
  induction events using List.reverseRecOn with
  | nil => exact ⟨s,hs,rfl,h⟩
  | append_singleton events e ih =>
    obtain ⟨s₁,hs₁,hsources,h₁⟩ := ih fun e h => he e (by simp [h])
    have hk := (sys.run events).apply_keeps (he e (by simp))
    obtain ⟨s',hs',hevolves⟩ := hk.sessions sid.value s₁ hs₁
    rw [System.run_snoc]
    refine ⟨s',hs',hevolves.sources.trans hsources,?_⟩
    exact h₁.later (hsources ▸ hle) (hevolves.mono (fun _ _ h => h)
      fun p q => (sys.run events).phases_follows e) hk.toRetains.sources

/-- A session that `create_session` makes of the adapter's plan compiles every source, each in a
phase of its own, and links what they make in one more: from its creation on, whatever the callers of
the process interleave. -/
theorem createSession_drives {w : World} {request : CompileRequest} {rt : Runtime}
    {sid : CompilerSessionId} {s : CompilerSession}
    (hplan : w.localPlan=buildPlan {
      translationUnitCount := request.sources.length+request.inlineSources.length
      wantSmokeTest := request.runSmokeTest })
    (hn : rt.find sid=none) (hs : (Runtime.createSession w request rt).2.find sid=some s) :
    s.sources.length=request.sources.length+request.inlineSources.length ∧
      s.sources.length ≤ kMaxUnits ∧
      ∃ compile link,Drives (Runtime.createSession w request rt).2 s compile link ∧
        ∀ (sys : System) events,sys.rt=(Runtime.createSession w request rt).2 →
          (∀ e ∈ events,e.inProcess) → ∃ s',(sys.run events).rt.find sid=some s' ∧
            s'.sources=s.sources ∧ Drives (sys.run events).rt s' compile link := by
  obtain ⟨hlength,hle,compile,link,h⟩ := drives_of_createSession hplan hn hs
  refine ⟨hlength,hle,compile,link,h,fun sys events hrt he => ?_⟩
  rw [← hrt] at h hs
  exact h.run hle hs he

end MsvcAdapter

namespace Sample

def pairRequest : CompileRequest := { request with sources := [ascii "main.cpp",ascii "util.cpp"] }

/-- Two sources, planned by the adapter. -/
def paired : World :=
  { world with
    sourceFiles := [.ok { path := ascii "C:\\main.cpp" },.ok { path := ascii "C:\\util.cpp" }]
    localPlan := MsvcAdapter.buildPlan { translationUnitCount := 2 } }

def pairCreated : System :=
  { ready with rt := (Runtime.createSession paired pairRequest ready.rt).2 }

/-- The second source is being compiled. -/
def pairCompiling : List Event :=
  .call (.runPhase ⟨1⟩ ⟨3⟩) paired::List.replicate 3 (.resume 1 paired)

end Sample

namespace MsvcAdapter

theorem pairCompiling_calls : ∀ e ∈ Sample.pairCompiling,e.inProcess := by
  intro e he
  simp only [Sample.pairCompiling,List.mem_cons,List.mem_replicate] at he
  rcases he with rfl | ⟨_,rfl⟩ <;> trivial

/-- Two sources, one of which is being compiled. -/
theorem createSession_drives_of_pair : ∃ s compile link s',
    Sample.pairCreated.rt.find ⟨1⟩=some s ∧ s.sources.length=2 ∧
    (Sample.pairCreated.run Sample.pairCompiling).rt.find ⟨1⟩=some s' ∧
    Drives (Sample.pairCreated.run Sample.pairCompiling).rt s' compile link := by
  have hrt : Sample.pairCreated.rt=
      (Runtime.createSession Sample.paired Sample.pairRequest Sample.ready.rt).2 := by
    rw [Sample.pairCreated]
  have h : (Sample.ready.rt.find ⟨1⟩).isNone ∧ (Sample.pairCreated.rt.find ⟨1⟩).isSome := by
    decide +kernel
  obtain ⟨s,hs⟩ := Option.isSome_iff_exists.1 h.2
  obtain ⟨hlength,_,compile,link,_,hrun⟩ :=
    createSession_drives rfl (Option.isNone_iff_eq_none.1 h.1) (hrt ▸ hs)
  obtain ⟨s',hs',_,hdrives⟩ := hrun Sample.pairCreated Sample.pairCompiling hrt pairCompiling_calls
  exact ⟨s,compile,link,s',hs,hlength,hs',hdrives⟩

end MsvcAdapter

end CompilerFabric
