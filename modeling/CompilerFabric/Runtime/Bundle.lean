import CompilerFabric.Runtime.State

namespace CompilerFabric

open Base (Format)

/-- A session projection: the session, the encoded authority it is bound to, and the
artifacts, diagnostic sets and encoded provenance it owns. -/
structure SessionBundle where
  session : CompilerSession := {}
  toolchain : Bytes := []
  target : Bytes := []
  environment : Bytes := []
  policy : Bytes := []
  sources : List Bytes := []
  artifacts : List IntermediateArtifact := []
  diagnostics : List DiagnosticSet := []
  provenance : List Bytes := []

def kMaxSectionBytes : Nat := 8388608

def bundleError (what : String) : Status :=
  .of .persistenceCorrupt ("session bundle "++what)

/-- A count read with one refusal and sections read with another. -/
def sections {α : Type} (count : Status) (bound : Nat) (F : Format Status α)
    (h : bound<2^64 := by decide) : Format Status (List α) := .list bound h count F

def section_ (e : Status) : Format Status Bytes := Codec.str e kMaxSectionBytes

def entity {α : Type} (e trailing : Status) (F : Format Status α) : Format Status α :=
  .blob kMaxSectionBytes (by decide) e trailing F

/-- `encode_session_bundle`/`decode_session_bundle`. -/
def bundleFormat : Format Status SessionBundle :=
  let authority := bundleError "authority section is truncated"
  .view
    (fun b => (b.session,b.toolchain,b.target,b.environment,b.policy,b.sources,b.artifacts,
      b.diagnostics,b.provenance))
    (fun (s,tc,tg,en,po,so,ar,di,pr) => ⟨s,tc,tg,en,po,so,ar,di,pr⟩)
    (fun _ => rfl) (fun _ => rfl) <|
  (entity (bundleError "is truncated") (malformed "session has trailing bytes")
    sessionFormat).pair <|
  (section_ authority).pair <| (section_ authority).pair <| (section_ authority).pair <|
  (section_ authority).pair <|
  (sections (bundleError "source count is invalid") SourceRegistry.kMaxSources
    (section_ (bundleError "source is truncated"))).pair <|
  (sections (bundleError "artifact count is invalid") ArtifactRegistry.kMaxArtifacts
    (entity (bundleError "artifact is truncated") (malformed "artifact has trailing bytes")
      artifactFormat)).pair <|
  (sections (bundleError "diagnostic count is invalid") DiagnosticStore.kMaxSets
    (entity (bundleError "diagnostic set is truncated")
      (malformed "diagnostic set has trailing bytes") diagnosticSetFormat)).pair <|
  sections (bundleError "provenance count is invalid") ProvenanceLog.kMaxRecords
    (section_ (bundleError "provenance is truncated"))

namespace Runtime

/-- The artifacts of the session that are registered, by identity. -/
def ownedArtifacts (rt : Runtime) (session : CompilerSession) : List IntermediateArtifact :=
  (session.intermediates.filterMap fun reference => rt.artifacts.find reference.id).insertionSort
    fun a b => a.id.value ≤ b.id.value

def ownedDiagnostics (rt : Runtime) (session : CompilerSession) : List DiagnosticSet :=
  (session.plan.order.filterMap fun id => (session.findPhase id).bind fun phase =>
    if phase.diagnostics.id.present then rt.diagnostics.find phase.diagnostics.id
    else none).insertionSort fun a b => a.id.value ≤ b.id.value

def citedProvenance (rt : Runtime) (owned : List IntermediateArtifact) :
    List ProvenanceRecord :=
  uniqueBy (fun a b => a.id=b.id) <|
    (owned.filterMap fun artifact =>
      if artifact.provenance.present then rt.provenance.find artifact.provenance
      else none).insertionSort fun a b => a.id.value ≤ b.id.value

/-- What `encode_session_bundle` gathers. -/
def bundleOf (rt : Runtime) (session : CompilerSession) : SessionBundle where
  session := session
  toolchain := ((rt.toolchains.find session.toolchain.id).map encodeToolchain).getD []
  target := ((rt.targets.find session.target.id).map encodeTargetIdentity).getD []
  environment :=
    ((rt.environments.find session.environment.id).map encodeEnvironmentIdentity).getD []
  policy := ((rt.policies.find session.policy.id).map encodePolicyIdentity).getD []
  sources := session.sources.map fun reference =>
    ((rt.sources.find reference.id).map encodeSourceUnit).getD []
  artifacts := rt.ownedArtifacts session
  diagnostics := rt.ownedDiagnostics session
  provenance := (rt.citedProvenance (rt.ownedArtifacts session)).map encodeProvenance

def encodeSessionBundle (rt : Runtime) (session : CompilerSession) : Bytes :=
  bundleFormat.write (rt.bundleOf session)

end Runtime

def decodeSessionBundle (bytes : Bytes) : Result SessionBundle :=
  bundleFormat.readAll (bundleError "has trailing bytes") bytes

/-- The outside of the runtime during one step: the clocks, and what the operating system,
the adapter and the executor answer if the step asks them. -/
structure World where
  now : UInt64 := 0
  wall : UInt64 := 0
  disk : List DiskOutcome := []
  workspace : Result Workspace := .ok {}
  /-- What building and checking the invocation came to. -/
  refusedInvocation : Option Status := none
  invalidInvocation : Option Status := none
  execution : Result ExecutionReport := .ok {}
  parsedDiagnostics : Option (List Diagnostic) := none
  secondExecution : Result ExecutionReport := .ok {}
  evidence : Result ValidationEvidence := .ok {}
  reprobed : Result ToolchainIdentity := .ok {}
  probed : Result ToolchainIdentity := .ok {}
  resolvedTarget : Result TargetSpec := .ok {}
  composedEnvironment : Result EnvironmentSpec := .ok {}
  localPlan : Result PhasePlan := .ok {}
  /-- The files behind the requested sources, then behind the staged ones. -/
  sourceFiles : List (Result SourceUnit) := []
  stagedFiles : List (Result SourceUnit) := []
  artifactFiles : List (IntermediateArtifactId × ArtifactRegistry.FileProbe) := []

namespace Runtime

def persist (w : World) (session : CompilerSession) : Op Unit := fun rt =>
  match rt.persistence with
  | none => (.ok (),rt)
  | some store =>
      match store.append .sessionStateChanged (rt.encodeSessionBundle session) w.wall with
      | (.ok _,store) => (.ok (),{ rt with persistence := some store })
      | (.error e,store) =>
          (.error e,{ rt with
            persistence := some store
            persistFailures := rt.persistFailures+1 })

end Runtime

end CompilerFabric
