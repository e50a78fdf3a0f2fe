import CompilerFabric.Runtime.Recovery

namespace CompilerFabric

open Base Base.Action

/-- Replay: the last decodable bundle of a session identity wins; the others that do not
decode are counted and skipped. -/
def replayRecord (s : Table SessionBundle × Nat) (record : JournalRecord) :
    Table SessionBundle × Nat :=
  if !record.kind.carriesSession then s
  else match decodeSessionBundle record.payload with
    | .error _ => (s.1,s.2+1)
    | .ok bundle => (s.1.insert bundle.session.id.value bundle,s.2)

def replay (records : List JournalRecord) : Table SessionBundle × Nat :=
  records.foldl replayRecord (∅,0)

namespace Runtime

/-- An encoded entity, if there is one, decoded and registered. -/
def reload {α : Type} (bytes : Bytes) (decode : Bytes → Result α) (register : α → Op Unit) :
    Op Unit :=
  if bytes.isEmpty then pure ()
  else do register (← ofExcept (decode bytes))

def reloadArtifact (artifact : IntermediateArtifact) : Op Unit := fun rt =>
  match rt.artifacts.registerArtifactAs artifact.id artifact with
  | .error e => (.error e,rt)
  | .ok (_,artifacts) => (.ok (),{ rt with artifacts })

def reloadDiagnostics (set : DiagnosticSet) : Op Unit := fun rt =>
  match rt.diagnostics.addAs set.id set with
  | .error e => (.error e,rt)
  | .ok (_,diagnostics) => (.ok (),{ rt with diagnostics })

/-- The authority the session was bound to is reloaded before the session. -/
def reloadAuthority (bundle : SessionBundle) : Op Unit := do
  reload bundle.toolchain decodeToolchain fun identity => do
    let _ ← onToolchains (·.registerToolchainAs identity.id identity)
  reload bundle.target decodeTargetIdentity fun identity => do
    let _ ← onTargets (·.internAs identity.id identity.spec)
  reload bundle.environment decodeEnvironmentIdentity fun identity => do
    let _ ← onEnvironments (·.internAs identity.id identity.spec)
  reload bundle.policy decodePolicyIdentity fun identity => do
    let _ ← onPolicies (·.internAs identity.id identity.spec)
  forEach (fun encoded => reload encoded decodeSourceUnit fun unit => do
    let _ ← onSources (·.addAs unit.id unit)) bundle.sources
  forEach reloadArtifact bundle.artifacts
  forEach (fun encoded => reload encoded decodeProvenance fun record =>
    modify fun rt => { rt with provenance := rt.provenance.appendAs record }) bundle.provenance
  forEach reloadDiagnostics bundle.diagnostics

/-- One recovered session of `Runtime::create`. -/
def recoverSession (w : World) (bundle : SessionBundle) : Op Unit := do
  reloadAuthority bundle
  modify fun rt => { rt with sessionIds := rt.sessionIds.observe bundle.session.id }
  let fenced ← fenceAllInFlight w "runtime restart fenced in-flight phase authority" bundle.session
  let session := recovered fenced (← get).epoch w.now
  persist w session
  modify fun rt => { rt with sessions := rt.sessions.insertIfNew session.id.value session }

/-- The recovery part of `Runtime::create`, in the order of the session identities. -/
def recoverSessions (w : World) (records : List JournalRecord) : Op Unit := do
  let (latest,defects) := replay records
  modify fun rt => { rt with persistedDefects := defects }
  forEach (recoverSession w) (latest.toList.map (·.2))
  if latest.isEmpty then pure ()
  else do
    let _ ← recordEvidence

def persistenceOptions (options : RuntimeOptions) : PersistenceOptions :=
  { options.persistence with
    directory := if options.persistence.directory.isEmpty then options.stateDirectory
      else options.persistence.directory
    name := if options.persistence.name.isEmpty then options.runtimeName
      else options.persistence.name }

def recordEpoch (w : World) (epoch : UInt64) : Op Unit := fun rt =>
  match rt.persistence with
  | none => (.ok (),rt)
  | some store =>
      match store.recordEpoch epoch w.wall with
      | (.ok _,store) => (.ok (),{ rt with persistence := some store })
      | (.error e,store) => (.error e,{ rt with persistence := some store })

/-- `Runtime::create` from the point where its store is open. -/
def recoverFrom (w : World) (previous : DurableState) : Op Unit := do
  check previous.trustworthy ⟨.persistenceCorrupt,
    ascii "existing durable state is not trustworthy: "++previous.detail⟩
  let epoch := previous.runtimeEpoch+1
  modify fun rt => { rt with epoch }
  recordEpoch w epoch
  if (← get).options.recoverOnLoad then recoverSessions w previous.records

/-- `Runtime::create` on the journal file at hand, with the adapters it registers. -/
def create (w : World) (options : RuntimeOptions) (adapters : List Adapter) (file : Bytes) :
    Result Unit × Runtime :=
  let rt : Runtime := { options,adapters }
  if options.stateDirectory.isEmpty then
    (refuse .invalidArgument "state directory is not configured",rt)
  else if options.enablePersistence then
    match PersistenceStore.openStore (persistenceOptions options) file w.disk w.wall with
    | (.error e,store) => (.error e,{ rt with persistence := some store })
    | (.ok (),store) => recoverFrom w store.load { rt with persistence := some store }
  else (.ok (),{ rt with epoch := 1 })

end Runtime

end CompilerFabric
