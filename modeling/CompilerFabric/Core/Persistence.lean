import CompilerFabric.Core.Session

namespace CompilerFabric

open Base (Format)

def kPersistenceSchemaVersion : UInt16 := 1
def kMaxStringBytes : Nat := 8192
def kMaxPathBytes : Nat := 32768
def kMaxBlobBytes : Nat := 4194304
def kMaxCollection : Nat := 65536

def malformed (what : String) : Status :=
  .of .persistenceCorrupt ("persisted state is malformed: "++what)

theorem PhaseKind.mem_values (k : PhaseKind) : k ∈ PhaseKind.values := by cases k <;> decide

theorem PhaseState.mem_values (s : PhaseState) : s ∈ PhaseState.values := by cases s <;> decide

theorem FailureClass.mem_values (f : FailureClass) : f ∈ FailureClass.values := by cases f <;> decide

theorem ObjectFormat.mem_values (f : ObjectFormat) : f ∈ ObjectFormat.values := by cases f <;> decide

theorem ArtifactState.mem_values (s : ArtifactState) : s ∈ ArtifactState.values := by
  cases s <;> decide

theorem AuthorityState.mem_values (s : AuthorityState) : s ∈ AuthorityState.values := by
  cases s <;> decide

theorem DiagnosticSeverity.mem_values (s : DiagnosticSeverity) : s ∈ DiagnosticSeverity.values := by
  cases s <;> decide

theorem SessionState.mem_values (s : SessionState) : s ∈ SessionState.values := by cases s <;> decide

theorem RecoveryState.mem_values (s : RecoveryState) : s ∈ RecoveryState.values := by
  cases s <;> decide

theorem ObjectFormat.values_few : ObjectFormat.values.length ≤ 256 := by decide

theorem DiagnosticSeverity.values_few : DiagnosticSeverity.values.length ≤ 256 := by decide

namespace Codec

/-! Bounds that more than one record or message names fit the prefix they are written behind. -/

theorem text_64 : 64<2^32 := by decide
theorem text_256 : 256<2^32 := by decide
theorem text_4096 : 4096<2^32 := by decide
theorem text_8192 : 8192<2^32 := by decide
theorem text_32768 : 32768<2^32 := by decide
theorem text_65536 : 2^16<2^32 := by decide
theorem list_64 : 64<2^64 := by decide
theorem list_256 : 256<2^64 := by decide
theorem list_phases : PlanData.kMaxPhases<2^64 := by decide
theorem list_entries : DiagnosticSet.kMaxEntries<2^64 := by decide

variable {tag : IdTag} (e : Status)

/-- The primitives of `Encoder`/`Decoder`; `e` is what the section they stand in reports. -/
def u8 : Format Status UInt8 := Format.u8 e
def u32 : Format Status UInt32 := Format.u32 e
def u64 : Format Status UInt64 := Format.u64 e
def i32 : Format Status Int32 := Format.i32 e

def b : Format Status Bool :=
  .lenient (fun v => if v then 1 else 0) (fun raw => .ok (raw ≠ 0)) (by decide) (Format.u8 e)
    fun _ => trivial

def str (bound : Nat) (h : bound<2^32 := by
      with_reducible first
        | exact text_64 | exact text_256 | exact text_4096 | exact text_8192 | exact text_32768
        | exact text_65536 | decide) : Format Status Bytes := .text bound h e

def path : Format Status Bytes := str e kMaxPathBytes

def digest : Format Status Digest :=
  .lenient Digest.toHex (fun hex => (Digest.fromHex hex).elim (.error e) .ok)
    (fun d => by simp [Digest.fromHex_toHex]) (str e 64) fun d => d.toHex_length.le

def identity : Format Status (StrongId tag) :=
  .view StrongId.value StrongId.mk (fun _ => rfl) (fun _ => rfl) (Format.u64 e)

def generation : Format Status (Generation tag) :=
  .view Generation.value Generation.mk (fun _ => rfl) (fun _ => rfl) (Format.u64 e)

def reference : Format Status (Ref tag) :=
  .view (fun r => (r.id,r.generation)) (fun r => ⟨r.1,r.2⟩) (fun _ => rfl) (fun _ => rfl)
    ((identity e).pair (generation e))

def collection {α : Type} (F : Format Status α) (bound : Nat := kMaxCollection)
    (h : bound<2^64 := by
      with_reducible first
        | exact list_64 | exact list_256 | exact list_phases | exact list_entries | decide) :
    Format Status (List α) := .list bound h e F

/-- A number read through `collection`, i.e. refused over `bound`. -/
def count (bound : Nat) : Format Status UInt64 := .check (fun n => n.toNat ≤ bound) e (Format.u64 e)

def statusCode : Format Status StatusCode :=
  .view StatusCode.raw StatusCode.mk (fun _ => rfl) (fun _ => rfl)
    (.check (fun raw => raw ≤ 200) e (Format.u16 e))

def phaseKind : Format Status PhaseKind :=
  .enumeration PhaseKind.values PhaseKind.mem_values (by decide) (by decide) e

def phaseState : Format Status PhaseState :=
  .enumeration PhaseState.values PhaseState.mem_values (by decide) (by decide) e

def failureClass : Format Status FailureClass :=
  .enumeration FailureClass.values FailureClass.mem_values (by decide) (by decide) e

def objectFormat : Format Status ObjectFormat :=
  .enumeration ObjectFormat.values ObjectFormat.mem_values (by decide) ObjectFormat.values_few e

def artifactState : Format Status ArtifactState :=
  .enumeration ArtifactState.values ArtifactState.mem_values (by decide) (by decide) e

def authorityState : Format Status AuthorityState :=
  .enumeration AuthorityState.values AuthorityState.mem_values (by decide) (by decide) e

def severity : Format Status DiagnosticSeverity :=
  .enumeration DiagnosticSeverity.values DiagnosticSeverity.mem_values (by decide)
    DiagnosticSeverity.values_few e

def sessionState : Format Status SessionState :=
  .enumeration SessionState.values SessionState.mem_values (by decide) (by decide) e

def recoveryState : Format Status RecoveryState :=
  .enumeration RecoveryState.values RecoveryState.mem_values (by decide) (by decide) e

/-- The schema number every record starts with. -/
def schema (header mismatch : Status) : Format Status Unit :=
  .expect kPersistenceSchemaVersion mismatch (Format.u16 header) trivial

def attempt : Format Status PhaseAttempt :=
  .view
    (fun a => (a.id,a.generation,a.invocation,a.processGeneration,a.osProcessId,
      a.terminalState,a.failure,a.status,a.exitCode,a.startedAtNanos,a.finishedAtNanos,
      a.observedOutputDigest,a.detail))
    (fun (i,g,inv,pg,os,ts,f,st,ex,sa,fa,od,d) => ⟨i,g,inv,pg,os,ts,f,st,ex,sa,fa,od,d⟩)
    (fun _ => rfl) (fun _ => rfl) <|
  (identity e).pair <| (generation e).pair <| (reference e).pair <| (generation e).pair <|
  (u32 e).pair <| (phaseState e).pair <| (failureClass e).pair <| (statusCode e).pair <|
  (i32 e).pair <| (u64 e).pair <| (u64 e).pair <| (digest e).pair <| str e kMaxStringBytes

def transition : Format Status PhaseTransition :=
  .view (fun t => (t.src,t.dst,t.atNanos,t.reason)) (fun (s,d,n,r) => ⟨s,d,n,r⟩)
    (fun _ => rfl) (fun _ => rfl) <|
  (phaseState e).pair <| (phaseState e).pair <| (u64 e).pair <| str e kMaxStringBytes

def diagnostic : Format Status Diagnostic :=
  .view (fun d => (d.severity,d.code,d.message,d.file,d.line,d.column,d.origin,d.raw))
    (fun (s,c,m,f,l,col,o,r) => ⟨s,c,m,f,l,col,o,r⟩) (fun _ => rfl) (fun _ => rfl) <|
  (severity e).pair <| (str e kMaxStringBytes).pair <| (str e kMaxStringBytes).pair <|
  (str e kMaxStringBytes).pair <| (u32 e).pair <| (u32 e).pair <|
  (str e kMaxStringBytes).pair <| str e kMaxBlobBytes

end Codec

open Codec

/-- `encode_phase`/`decode_phase`. -/
def phaseFormat : Format Status PhaseRecord :=
  let body := malformed "phase body"
  let coll := malformed "phase collections"
  .view
    (fun p => ((),p.id,p.generation,p.kind,p.adapterPhase,p.state,p.mandatory,
      p.sessionGeneration,p.compilationGeneration,p.attemptGeneration,p.toolchain,p.target,
      p.environment,p.policy,p.source,p.irGeneration,p.lease,p.activeInvocation,
      p.activeProcess,p.activeProcessGeneration,p.diagnostics,p.commit,
      p.committedOutputDigest,p.committedAtNanos,p.failure,p.lastStatus,p.lastDetail,
      p.recovery,p.recoveryGeneration,p.dependsOn,p.inputs,p.outputs,p.attempts,p.history))
    (fun ((),i,g,k,ap,st,m,sg,cg,ag,tc,tg,en,po,so,ir,le,inv,pr,prg,dg,co,od,ca,f,ls,ld,re,rg,
        dep,ins,outs,att,his) =>
      ⟨i,g,k,ap,st,m,dep,sg,cg,ag,tc,tg,en,po,so,ir,le,inv,pr,prg,ins,outs,dg,co,od,ca,att,his,
        f,ls,ld,re,rg⟩)
    (fun _ => rfl) (fun _ => rfl) <|
  (schema (malformed "phase header")
    (.of .persistenceSchemaMismatch "phase schema version mismatch")).pair <|
  (identity body).pair <| (generation body).pair <| (phaseKind body).pair <|
  (str body kMaxStringBytes).pair <| (phaseState body).pair <| (b body).pair <|
  (generation body).pair <| (generation body).pair <| (generation body).pair <|
  (reference body).pair <| (reference body).pair <| (reference body).pair <|
  (reference body).pair <| (reference body).pair <| (generation body).pair <|
  (reference body).pair <| (reference body).pair <| (identity body).pair <|
  (generation body).pair <| (reference body).pair <| (identity body).pair <| (digest body).pair <|
  (u64 body).pair <| (failureClass body).pair <| (statusCode body).pair <|
  (str body kMaxStringBytes).pair <| (identity body).pair <| (generation body).pair <|
  (collection coll (identity coll)).pair <| (collection coll (reference coll)).pair <|
  (collection coll (reference coll)).pair <|
  (collection coll (attempt coll) kMaxPhaseAttempts).pair <|
  collection coll (transition coll) kMaxPhaseTransitions

def encodePhase (phase : PhaseRecord) : Bytes := phaseFormat.write phase

def decodePhase (bytes : Bytes) : Result PhaseRecord :=
  phaseFormat.readAll (malformed "phase has trailing bytes") bytes

/-- `encode_artifact`/`decode_artifact`. -/
def artifactFormat : Format Status IntermediateArtifact :=
  let body := malformed "artifact body"
  .view
    (fun a => ((),a.id,a.generation,a.format,a.path,a.content,a.sizeBytes,a.producerPhase,
      a.producerInvocation,a.toolchain,a.target,a.source,a.irGeneration,a.environment,
      a.policy,a.provenance,a.state,a.authority,a.current,a.declaredDigest,
      a.validationDetail,a.lineageInputs))
    (fun ((),i,g,f,pa,co,sz,pp,pi,tc,tg,so,ir,en,po,pv,st,au,cu,dd,vd,li) =>
      ⟨i,g,f,pa,co,sz,pp,pi,tc,tg,so,ir,en,po,li,st,au,pv,vd,dd,cu⟩)
    (fun _ => rfl) (fun _ => rfl) <|
  (schema (malformed "artifact header")
    (.of .persistenceSchemaMismatch "artifact schema version mismatch")).pair <|
  (identity body).pair <| (generation body).pair <| (objectFormat body).pair <|
  (path body).pair <| (digest body).pair <| (u64 body).pair <| (reference body).pair <|
  (reference body).pair <| (reference body).pair <| (reference body).pair <|
  (reference body).pair <| (generation body).pair <| (reference body).pair <|
  (reference body).pair <| (identity body).pair <| (artifactState body).pair <|
  (authorityState body).pair <| (b body).pair <| (digest body).pair <|
  (str body kMaxStringBytes).pair <| collection body (reference body)

def encodeArtifact (artifact : IntermediateArtifact) : Bytes := artifactFormat.write artifact

def decodeArtifact (bytes : Bytes) : Result IntermediateArtifact :=
  artifactFormat.readAll (malformed "artifact has trailing bytes") bytes

/-- `encode_diagnostic_set`/`decode_diagnostic_set`. -/
def diagnosticSetFormat : Format Status DiagnosticSet :=
  let body := malformed "diagnostic set body"
  .view
    (fun d => ((),d.id,d.generation,d.invocation,d.phase,d.toolchain,d.target,d.normalized,
      d.truncated,d.rawStdoutBytes,d.rawStderrBytes,d.droppedStdoutBytes,
      d.droppedStderrBytes,d.exitCode,d.processCrashed,d.errorCount,d.warningCount,
      d.rawStdoutTail,d.rawStderrTail,d.entries))
    (fun ((),i,g,inv,ph,tc,tg,no,tr,so,se,ds,de,ex,cr,er,wa,ot,et,en) =>
      ⟨i,g,inv,ph,tc,tg,en,no,tr,so,se,ds,de,ot,et,ex,cr,er,wa⟩)
    (fun _ => rfl) (fun _ => rfl) <|
  (schema (malformed "diagnostic set header")
    (.of .persistenceSchemaMismatch "diagnostic schema version mismatch")).pair <|
  (identity body).pair <| (generation body).pair <| (reference body).pair <|
  (reference body).pair <| (reference body).pair <| (reference body).pair <| (b body).pair <|
  (b body).pair <| (u64 body).pair <| (u64 body).pair <| (u64 body).pair <| (u64 body).pair <|
  (i32 body).pair <| (b body).pair <| (u32 body).pair <| (u32 body).pair <|
  (str body DiagnosticSet.kMaxRawTailBytes).pair <|
  (str body DiagnosticSet.kMaxRawTailBytes).pair <|
  collection body (diagnostic body) DiagnosticSet.kMaxEntries

def encodeDiagnosticSet (set : DiagnosticSet) : Bytes := diagnosticSetFormat.write set

def decodeDiagnosticSet (bytes : Bytes) : Result DiagnosticSet :=
  diagnosticSetFormat.readAll (malformed "diagnostic set has trailing bytes") bytes

/-- `encode_candidate`/`decode_candidate`. -/
def candidateFormat : Format Status FinalCandidate :=
  let body := malformed "candidate body"
  .view
    (fun c => ((),c.id,c.generation,c.compilation,c.compilationGeneration,
      c.attemptGeneration,c.session,c.toolchain,c.target,c.environment,c.policy,c.source,
      c.irGeneration,c.format,c.path,c.content,c.sizeBytes,c.provenance,c.lineageDigest,
      c.completeLineage,c.handedOff,c.registeredAtNanos,c.lineage,c.validationEvidence))
    (fun ((),i,g,co,cg,ag,se,tc,tg,en,po,so,ir,f,pa,ct,sz,pv,ld,cl,ho,ra,li,ve) =>
      ⟨i,g,co,cg,ag,se,tc,tg,en,po,so,ir,f,pa,ct,sz,li,ve,pv,ld,cl,ra,ho⟩)
    (fun _ => rfl) (fun _ => rfl) <|
  (schema (malformed "candidate header")
    (.of .persistenceSchemaMismatch "candidate schema version mismatch")).pair <|
  (identity body).pair <| (generation body).pair <| (identity body).pair <|
  (generation body).pair <| (generation body).pair <| (reference body).pair <|
  (reference body).pair <| (reference body).pair <| (reference body).pair <|
  (reference body).pair <| (reference body).pair <| (generation body).pair <|
  (objectFormat body).pair <| (path body).pair <| (digest body).pair <| (u64 body).pair <|
  (identity body).pair <| (digest body).pair <| (b body).pair <| (b body).pair <|
  (u64 body).pair <| (collection body (reference body)).pair <|
  collection body (identity body)

def encodeCandidate (candidate : FinalCandidate) : Bytes := candidateFormat.write candidate

def decodeCandidate (bytes : Bytes) : Result FinalCandidate :=
  candidateFormat.readAll (malformed "candidate has trailing bytes") bytes

def nodeFormat (e : Status) : Format Status PhaseNode :=
  .view
    (fun n => (n.id,n.kind,n.adapterPhase,n.mandatory,n.fanIn,n.requiredInputs,n.dependsOn,
      n.expectedOutputs))
    (fun (i,k,ap,m,fi,ri,dep,eo) => ⟨i,k,ap,dep,m,eo,fi,ri⟩) (fun _ => rfl) (fun _ => rfl) <|
  (identity e).pair <| (phaseKind e).pair <| (str e kMaxStringBytes).pair <| (b e).pair <|
  (b e).pair <| (count e kMaxCollection).pair <| (collection e (identity e)).pair <|
  collection e (objectFormat e)

/-- The nodes `encode_plan` writes; `decode_plan` builds the plan from them again. -/
def nodesFormat : Format Status (List PhaseNode) :=
  let body := malformed "plan body"
  .view (fun ns => ((),ns)) (fun ns => ns.2) (fun _ => rfl) (fun _ => rfl) <|
  (schema (malformed "plan header")
    (.of .persistenceSchemaMismatch "plan schema version mismatch")).pair <|
  collection body (nodeFormat body) PlanData.kMaxPhases

def encodePlan (plan : PhasePlan) : Bytes := nodesFormat.write plan.nodes

def decodePlan (bytes : Bytes) : Result PhasePlan :=
  (nodesFormat.readAll (malformed "plan has trailing bytes") bytes).bind PhasePlan.build

/-- The plan as a session carries it: one blob, rebuilt on reading. -/
def planFormat (e : Status) : Format Status PhasePlan :=
  .refine (fun plan => plan.nodes ≠ []) (·.nodes) PhasePlan.build
    (fun plan h => plan.build_nodes_self.2 h)
    (fun plan nodes h => by
      have hn : plan.nodes=nodes := PlanData.build_nodes (PhasePlan.build_ok.1 h)
      refine ⟨plan.build_nodes_self.1 ?_,hn.symm⟩
      rw [hn]
      exact h)
    (.blob kMaxBlobBytes (by decide) e (malformed "plan has trailing bytes") nodesFormat)

def variableFormat (e : Status) (nameBound valueBound : Nat)
    (hn : nameBound<2^32 := by with_reducible first | exact text_4096 | decide)
    (hv : valueBound<2^32 := by with_reducible first | exact text_65536 | decide) :
    Format Status EnvironmentVariable :=
  .view (fun v => (v.name,v.value)) (fun (n,v) => ⟨n,v⟩) (fun _ => rfl) (fun _ => rfl) <|
  (str e nameBound hn).pair (str e valueBound hv)

/-- The phases of a session in the order `encode_session` writes them. -/
def orderedPhases (phases : Table PhaseRecord) : List PhaseRecord :=
  (phases.toList.map (·.2)).insertionSort fun a b => a.id.value ≤ b.id.value

/-- `phases.emplace(id, phase)` for each: the first of an identity stays. -/
def emplacePhases (ps : List PhaseRecord) : Table PhaseRecord :=
  ps.foldl (fun (m : Table PhaseRecord) (p : PhaseRecord) => m.insertIfNew p.id.value p) ∅

/-- Every phase is stored under its own identity. -/
def KeyedById (phases : Table PhaseRecord) : Prop :=
  ∀ (k : UInt64) (p : PhaseRecord),phases[k]?=some p → p.id.value=k

private theorem foldl_insertIfNew (ps : List PhaseRecord) (m : Table PhaseRecord) (k : UInt64) :
    (ps.foldl (fun (m : Table PhaseRecord) (p : PhaseRecord) => m.insertIfNew p.id.value p) m)[k]?=
      m[k]?.or (ps.find? (·.id.value=k)) := by
  induction ps generalizing m with
  | nil => simp
  | cons p ps ih =>
    rw [List.foldl_cons,ih,Std.ExtTreeMap.getElem?_insertIfNew,List.find?_cons]
    by_cases hk : p.id.value=k
    · subst hk
      cases hm : m[p.id.value]? <;> simp [hm,← Std.ExtTreeMap.isSome_getElem?_iff_mem]
    · simp [hk]

theorem emplacePhases_getElem? (ps : List PhaseRecord) (k : UInt64) :
    (emplacePhases ps)[k]?=ps.find? (·.id.value=k) := by
  simp [emplacePhases,foldl_insertIfNew]

theorem keyedById_emplacePhases (ps : List PhaseRecord) : KeyedById (emplacePhases ps) := by
  intro k p h
  rw [emplacePhases_getElem?] at h
  simpa using List.find?_some h

theorem mem_orderedPhases {phases : Table PhaseRecord} {p : PhaseRecord} :
    p ∈ orderedPhases phases ↔ ∃ k : UInt64,phases[k]?=some p := by
  simp [orderedPhases,List.mem_insertionSort,Std.ExtTreeMap.mem_toList_iff_getElem?_eq_some]

theorem orderedPhases_nodup {phases : Table PhaseRecord} (h : KeyedById phases) :
    ((orderedPhases phases).map (·.id.value)).Nodup := by
  have hperm : (orderedPhases phases).Perm (phases.toList.map (·.2)) :=
    List.perm_insertionSort _ _
  rw [(hperm.map _).nodup_iff,List.map_map]
  have hkeys : phases.toList.map ((fun p => p.id.value) ∘ fun x => x.2)=phases.keys := by
    rw [← Std.ExtTreeMap.map_fst_toList_eq_keys]
    apply List.map_congr_left
    intro x hx
    exact h _ _ (Std.ExtTreeMap.mem_toList_iff_getElem?_eq_some.1 hx)
  rw [hkeys]
  exact Std.ExtTreeMap.nodup_keys

theorem find?_of_nodup {ps : List PhaseRecord} (hn : (ps.map (·.id.value)).Nodup)
    {p : PhaseRecord} (hp : p ∈ ps) : ps.find? (·.id.value=p.id.value)=some p := by
  induction ps with
  | nil => simp at hp
  | cons q ps ih =>
    simp only [List.map_cons,List.nodup_cons,List.mem_map,not_exists,not_and] at hn
    rcases List.mem_cons.1 hp with rfl | hp
    · simp
    · have hne : q.id.value ≠ p.id.value := fun he => hn.1 p hp he.symm
      simp [hne,ih hn.2 hp]

theorem emplacePhases_orderedPhases {phases : Table PhaseRecord} (h : KeyedById phases) :
    emplacePhases (orderedPhases phases)=phases := by
  apply Std.ExtTreeMap.ext_getElem?
  intro k
  rw [emplacePhases_getElem?]
  cases hk : phases[k]? with
  | none =>
    rw [List.find?_eq_none]
    intro p hp
    obtain ⟨k',hk'⟩ := mem_orderedPhases.1 hp
    have := h _ _ hk'
    simp only [decide_eq_true_eq]
    rintro rfl
    rw [← this,hk] at hk'
    cases hk'
  | some p =>
    have hid := h _ _ hk
    have := find?_of_nodup (orderedPhases_nodup h) (mem_orderedPhases.2 ⟨k,hk⟩)
    rwa [hid] at this

theorem find?_of_mem_orderedPhases (ps : List PhaseRecord) :
    ∀ p ∈ orderedPhases (emplacePhases ps),ps.find? (·.id.value=p.id.value)=some p := by
  intro p hp
  obtain ⟨k,hk⟩ := mem_orderedPhases.1 hp
  have hid := keyedById_emplacePhases ps k p hk
  rw [emplacePhases_getElem?] at hk
  rwa [hid]

def phaseBlob (e : Status) : Format Status PhaseRecord :=
  .blob kMaxBlobBytes (by decide) e (malformed "phase has trailing bytes") phaseFormat

/-- The identity stands in a fixed place at the front, so it is read back in any case. -/
theorem phaseBlob_read_id (e : Status) (x y : PhaseRecord) (r r' : Bytes)
    (h : (phaseBlob e).read ((phaseBlob e).write x++r)=.ok (y,r')) :
    y.id.value=x.id.value := by
  obtain ⟨v,hv⟩ := Format.blob_read _ _ _ _ _ h
  obtain ⟨⟨z,t⟩,hz,hv⟩ := Base.bind_eq_ok.1 hv
  simp only [Except.ok.injEq,Prod.mk.injEq] at hv
  rw [← List.append_nil (phaseFormat.write x)] at hz
  have hid := (Format.pair_read _ _ (Format.pair_read _ _ hz trivial).2 trivial).1
  rw [← hv.1]
  exact congrArg StrongId.value hid

def phasesFormat (e : Status) : Format Status (Table PhaseRecord) :=
  .keyed PlanData.kMaxPhases (by decide) e (phaseBlob e) (·.id.value) (phaseBlob_read_id e)
    KeyedById orderedPhases emplacePhases (fun _ => emplacePhases_orderedPhases)
    keyedById_emplacePhases (fun _ => orderedPhases_nodup) find?_of_mem_orderedPhases

/-- `encode_session`/`decode_session`. -/
def sessionFormat : Format Status CompilerSession :=
  let body := malformed "session body"
  let cand := malformed "session candidate"
  let tail := malformed "session tail"
  .view
    (fun s => ((),s.id,s.generation,s.state,s.recoveryState,s.request,s.compilation,
      s.compilationGeneration,s.attempt,s.attemptGeneration,s.toolchain,s.target,
      s.environment,s.policy,s.source,s.irGeneration,s.adapterName,s.finalArtifactName,
      s.adapterOptions,s.cooperatingToolchains,s.sources,s.plan,s.phases,s.currentPhase,
      s.intermediates,s.candidatePresent,s.candidate,s.recovery,s.recoveryGeneration,
      s.evidenceGeneration,s.epoch,s.failureDetail,s.createdAtNanos,s.updatedAtNanos,
      s.sessionRetriesUsed,s.requestDigest))
    (fun ((),i,g,st,rs,rq,co,cg,at_,ag,tc,tg,en,po,so,ir,an,fn,op,ct,ss,pl,ph,cp,im,pr,ca,
        re,rg,eg,ep,fd,cr,up,ru,rd) =>
      ⟨i,g,st,rs,rq,co,cg,at_,ag,tc,ct,tg,en,po,so,ss,ir,an,fn,op,pl,ph,cp,im,ca,pr,re,rg,eg,
        ep,fd,cr,up,ru,rd⟩)
    (fun _ => rfl) (fun _ => rfl) <|
  (schema (malformed "session header")
    (.of .persistenceSchemaMismatch "session schema version mismatch")).pair <|
  (identity body).pair <| (generation body).pair <| (sessionState body).pair <|
  (recoveryState body).pair <| (identity body).pair <| (identity body).pair <|
  (generation body).pair <| (identity body).pair <| (generation body).pair <|
  (reference body).pair <| (reference body).pair <| (reference body).pair <|
  (reference body).pair <| (reference body).pair <| (generation body).pair <|
  (str body kMaxStringBytes).pair <| (str body kMaxStringBytes).pair <|
  (collection body (variableFormat body kMaxStringBytes kMaxStringBytes) 1024).pair <|
  (collection body (reference body)).pair <|
  (collection body (reference body) SourceRegistry.kMaxSources).pair <|
  (planFormat body).pair <| (phasesFormat cand).pair <| (identity cand).pair <|
  (collection cand (reference cand) ArtifactRegistry.kMaxArtifacts).pair <| (b cand).pair <|
  (Format.blob kMaxBlobBytes (by decide) cand (malformed "candidate has trailing bytes")
    candidateFormat).pair <|
  (identity tail).pair <| (generation tail).pair <| (generation tail).pair <|
  (identity tail).pair <| (str tail kMaxStringBytes).pair <| (u64 tail).pair <|
  (u64 tail).pair <| (u32 tail).pair <| digest tail

def encodeSession (session : CompilerSession) : Bytes := sessionFormat.write session

def decodeSession (bytes : Bytes) : Result CompilerSession :=
  sessionFormat.readAll (malformed "session has trailing bytes") bytes

def fileIdentityFormat (e : Status) : Format Status FileIdentity :=
  .view
    (fun f => (f.canonicalPath,f.volumeSerialHex,f.fileIndexHex,f.sizeBytes,f.lastWriteNanos,
      f.content,f.contentHashed))
    (fun (p,v,i,s,l,c,h) => ⟨p,v,i,s,l,c,h⟩) (fun _ => rfl) (fun _ => rfl) <|
  (path e).pair <| (str e 64).pair <| (str e 64).pair <| (u64 e).pair <| (u64 e).pair <|
  (digest e).pair <| b e

/-- `encode_environment_variables`/`decode_environment_variables`. -/
def variablesFormat (e : Status) : Format Status (List EnvironmentVariable) :=
  collection e (variableFormat e 4096 (2^20)) 4096

def environmentSpecFormat (e : Status) : Format Status EnvironmentSpec :=
  .view
    (fun s => (s.workingDirectory,s.tempDirectory,s.vars,s.includePaths,s.libraryPaths,
      s.sdkRoots,s.toolkitRoots,s.inheritedVariables,s.localePolicy.raw,s.localeName,
      s.deterministicControls))
    (fun (w,t,v,i,l,sd,tk,iv,lp,ln,d) => ⟨w,t,v,i,l,sd,tk,iv,⟨lp⟩,ln,d⟩)
    (fun _ => rfl) (fun _ => rfl) <|
  (path e).pair <| (path e).pair <| (variablesFormat e).pair <|
  (collection e (path e) 4096).pair <| (collection e (path e) 4096).pair <|
  (collection e (path e) 4096).pair <| (collection e (path e) 4096).pair <|
  (collection e (str e 1024) 4096).pair <| (u8 e).pair <| (str e 256).pair <| b e

def policySpecFormat (e : Status) : Format Status PolicySpec :=
  .view
    (fun s => (s.reproducibility.raw,s.maxRetriesPerPhase,s.maxRetriesPerSession,
      s.retryableClasses,s.forbiddenOptions,s.allowParallelPhases,s.maxParallelPhases,
      s.phaseTimeoutMillis,s.validationTimeoutMillis,s.runSmokeTest,s.requireContentDigest,
      s.maxDiagnosticEntries,s.maxDiagnosticBytesPerStream,s.allowLocalCache))
    (fun (r,rp,rs,rc,fo,ap,mp,pt,vt,st,cd,de,db,lc) =>
      ⟨⟨r⟩,rp,rs,rc,fo,ap,mp,pt,vt,st,cd,de,db,lc⟩)
    (fun _ => rfl) (fun _ => rfl) <|
  (u8 e).pair <| (u32 e).pair <| (u32 e).pair <| (collection e (u8 e) 64).pair <|
  (collection e (str e 4096) 256).pair <| (b e).pair <| (count e 4096).pair <|
  (u32 e).pair <| (u32 e).pair <| (b e).pair <| (b e).pair <| (count e (2^20)).pair <|
  (count e (2^30)).pair <| b e

def targetSpecFormat (e : Status) : Format Status TargetSpec :=
  .view
    (fun s => (s.architecture.raw,s.os.raw,s.triple,s.cpu,s.deviceArch,s.deviceVirtualArch,
      s.abi,s.pointerWidthBits))
    (fun (a,o,t,c,d,v,ab,p) => ⟨⟨a⟩,⟨o⟩,t,c,d,v,ab,p⟩) (fun _ => rfl) (fun _ => rfl) <|
  (u8 e).pair <| (u8 e).pair <| (str e 256).pair <| (str e 256).pair <| (str e 256).pair <|
  (str e 256).pair <| (str e 256).pair <| u32 e

/-- `decode_enum_list<Architecture>`. -/
def architecturesFormat (e : Status) : Format Status (List Architecture) :=
  collection e (.view Architecture.raw Architecture.mk (fun _ => rfl) (fun _ => rfl)
    (.check (fun raw => raw ≤ 4) e (u8 e))) 32

def componentFormat (e : Status) : Format Status ComponentIdentity :=
  .view
    (fun c => (c.id,c.generation,c.kind.raw,c.name,c.version,c.file,c.commandCapabilities,
      c.targetSupport,c.objectFormats,c.environmentRequirements,c.evidenceClass.raw))
    (fun (i,g,k,n,v,f,cc,ts,fs,er,ev) => ⟨i,g,⟨k⟩,n,v,f,cc,ts,fs,er,⟨ev⟩⟩)
    (fun _ => rfl) (fun _ => rfl) <|
  (identity e).pair <| (generation e).pair <| (u8 e).pair <| (str e kMaxStringBytes).pair <|
  (str e kMaxStringBytes).pair <| (fileIdentityFormat e).pair <|
  (collection e (str e 4096) 256).pair <| (architecturesFormat e).pair <|
  (collection e (objectFormat e) 32).pair <| (variablesFormat e).pair <| u8 e

/-- `encode_toolchain`/`decode_toolchain`. -/
def toolchainFormat : Format Status ToolchainIdentity :=
  let body := malformed "toolchain body"
  .view
    (fun t => ((),t.id,t.generation,t.family.raw,t.displayName,t.version,t.components,
      t.targetSupport,t.objectFormats,t.environmentContract,t.toolkitRoot,t.sdkRoot,
      t.attributes,t.standardLibraryIdentity,t.evidenceClass.raw,t.evidenceDigest))
    (fun ((),i,g,f,d,v,cs,ts,fs,ec,tk,sd,at_,sl,ev,ed) =>
      ⟨i,g,⟨f⟩,d,v,cs,ts,fs,ec,tk,sd,at_,sl,⟨ev⟩,ed⟩)
    (fun _ => rfl) (fun _ => rfl) <|
  (schema (malformed "toolchain header")
    (.of .persistenceSchemaMismatch "toolchain schema version mismatch")).pair <|
  (identity body).pair <| (generation body).pair <| (u8 body).pair <|
  (str body kMaxStringBytes).pair <| (str body kMaxStringBytes).pair <|
  (collection body (componentFormat body) 256).pair <| (architecturesFormat body).pair <|
  (collection body (objectFormat body) 32).pair <| (variablesFormat body).pair <|
  (path body).pair <| (path body).pair <| (variablesFormat body).pair <|
  (str body kMaxStringBytes).pair <| (u8 body).pair <| digest body

def encodeToolchain (identity : ToolchainIdentity) : Bytes := toolchainFormat.write identity

def decodeToolchain (bytes : Bytes) : Result ToolchainIdentity :=
  toolchainFormat.readAll (malformed "toolchain has trailing bytes") bytes

/-- The codec of `TargetIdentity`, `EnvironmentIdentity` and `PolicyIdentity`: a wrong
schema number is reported as a malformed header. -/
def identityFormat {tag : IdTag} {σ : Type} (what : String) (spec : Status → Format Status σ) :
    Format Status (SpecIdentity tag σ) :=
  let header := malformed (what++" header")
  let body := malformed (what++" body")
  .view (fun i => ((),i.id,i.generation,i.digest,i.spec)) (fun ((),i,g,d,s) => ⟨i,g,d,s⟩)
    (fun _ => rfl) (fun _ => rfl) <|
  (schema header header).pair <| (identity body).pair <| (generation body).pair <|
  (digest body).pair <| spec body

def targetFormat : Format Status TargetIdentity := identityFormat "target identity" targetSpecFormat

def environmentFormat : Format Status EnvironmentIdentity :=
  identityFormat "environment identity" environmentSpecFormat

def policyFormat : Format Status PolicyIdentity := identityFormat "policy identity" policySpecFormat

def encodeTargetIdentity (identity : TargetIdentity) : Bytes := targetFormat.write identity

def decodeTargetIdentity (bytes : Bytes) : Result TargetIdentity :=
  targetFormat.readAll (malformed "target identity has trailing bytes") bytes

def encodeEnvironmentIdentity (identity : EnvironmentIdentity) : Bytes :=
  environmentFormat.write identity

def decodeEnvironmentIdentity (bytes : Bytes) : Result EnvironmentIdentity :=
  environmentFormat.readAll (malformed "environment identity has trailing bytes") bytes

def encodePolicyIdentity (identity : PolicyIdentity) : Bytes := policyFormat.write identity

def decodePolicyIdentity (bytes : Bytes) : Result PolicyIdentity :=
  policyFormat.readAll (malformed "policy identity has trailing bytes") bytes

/-- `encode_source_unit`/`decode_source_unit`. -/
def sourceUnitFormat : Format Status SourceUnit :=
  let header := malformed "source unit header"
  let body := malformed "source unit body"
  .view
    (fun u => ((),u.id,u.generation,u.path,u.language.raw,u.dialect,u.content,u.sizeBytes,
      u.redactDiagnostics))
    (fun ((),i,g,p,l,d,c,s,r) => ⟨i,g,p,⟨l⟩,d,c,s,r⟩) (fun _ => rfl) (fun _ => rfl) <|
  (schema header header).pair <| (identity body).pair <| (generation body).pair <|
  (path body).pair <| (u8 body).pair <| (str body 256).pair <| (digest body).pair <|
  (u64 body).pair <| b body

def encodeSourceUnit (unit : SourceUnit) : Bytes := sourceUnitFormat.write unit

def decodeSourceUnit (bytes : Bytes) : Result SourceUnit :=
  sourceUnitFormat.readAll (malformed "source unit has trailing bytes") bytes

/-- `encode_provenance`/`decode_provenance`. -/
def provenanceFormat : Format Status ProvenanceRecord :=
  let header := malformed "provenance header"
  let body := malformed "provenance body"
  .view
    (fun r => ((),r.id,r.generation,r.kind,r.session,r.compilation,r.phase,r.invocation,
      r.toolchain,r.target,r.environment,r.policy,r.source,r.inputs,r.outputs,r.adapter,
      r.verdict.raw,r.detail,r.atNanos))
    (fun ((),i,g,k,se,co,ph,inv,tc,tg,en,po,so,ins,outs,ad,v,d,at_) =>
      ⟨i,g,k,se,co,ph,inv,tc,tg,en,po,so,ins,outs,ad,⟨v⟩,d,at_⟩)
    (fun _ => rfl) (fun _ => rfl) <|
  (schema header header).pair <| (identity body).pair <| (generation body).pair <|
  (str body 256).pair <| (reference body).pair <| (reference body).pair <|
  (reference body).pair <| (reference body).pair <| (reference body).pair <|
  (reference body).pair <| (reference body).pair <| (reference body).pair <|
  (reference body).pair <| (collection body (reference body) 4096).pair <|
  (collection body (reference body) 4096).pair <| (str body 256).pair <| (u8 body).pair <|
  (str body ProvenanceLog.kMaxDetailBytes).pair <| u64 body

def encodeProvenance (record : ProvenanceRecord) : Bytes := provenanceFormat.write record

def decodeProvenance (bytes : Bytes) : Result ProvenanceRecord :=
  provenanceFormat.readAll (malformed "provenance has trailing bytes") bytes

/-- The snapshot envelope: encoded sessions and the artifacts and diagnostic sets they own. -/
structure StateSnapshot where
  schemaVersion : UInt16 := kPersistenceSchemaVersion
  runtimeEpoch : UInt64 := 0
  lastSequence : UInt64 := 0
  encodedSessions : List Bytes := []
  encodedArtifacts : List Bytes := []
  encodedDiagnostics : List Bytes := []

/-- `StateSnapshot::encode`/`StateSnapshot::decode`. -/
def snapshotFormat : Format Status StateSnapshot :=
  let body := malformed "snapshot body"
  .view
    (fun s => (s.schemaVersion,s.runtimeEpoch,s.lastSequence,s.encodedSessions,s.encodedArtifacts,
      s.encodedDiagnostics))
    (fun (v,e,l,se,ar,di) => ⟨v,e,l,se,ar,di⟩) (fun _ => rfl) (fun _ => rfl) <|
  (Format.check (fun v => v=kPersistenceSchemaVersion)
    (.of .persistenceSchemaMismatch "snapshot schema version mismatch")
    (Format.u16 (malformed "snapshot header"))).pair <|
  (u64 body).pair <| (u64 body).pair <| (collection body (str body kMaxBlobBytes)).pair <|
  (collection body (str body kMaxBlobBytes) ArtifactRegistry.kMaxArtifacts).pair <|
  collection body (str body kMaxBlobBytes) DiagnosticStore.kMaxSets

def encodeSnapshot (snapshot : StateSnapshot) : Bytes := snapshotFormat.write snapshot

def decodeSnapshot (bytes : Bytes) : Result StateSnapshot :=
  snapshotFormat.readAll (malformed "snapshot has trailing bytes") bytes

end CompilerFabric
