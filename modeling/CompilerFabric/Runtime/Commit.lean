import CompilerFabric.Runtime.Execute

namespace CompilerFabric

open Base Base.Action

namespace PhaseRecord

/-- A commit whose toolchain could not be probed again. -/
def unprobed (phase : PhaseRecord) (detail : Bytes) (now : UInt64) : PhaseRecord :=
  { phase with
    failure := .invalidToolchain
    lastStatus := .integrityUnproven
    lastDetail := detail }.recordTransition .fenced detail now

/-- A commit refused because authority moved. -/
def commitRefused (phase : PhaseRecord) (verdict : AuthorityVerdict) (detail : Bytes)
    (now : UInt64) : PhaseRecord :=
  ({ phase with
    failure := .authorityInvalidated
    lastStatus := verdict.toStatusCode
    lastDetail := detail }.modifyLastAttempt fun a => { a with
      terminalState := .fenced
      failure := .authorityInvalidated }).recordTransition .fenced detail now

def committed (phase : PhaseRecord) (commit : CommitId) (now : UInt64) : PhaseRecord :=
  ({ phase with commit,committedAtNanos := now }.modifyLastAttempt fun a => { a with
    terminalState := .committed }).recordTransition .committed
      (ascii "authority revalidated and outputs committed") now

end PhaseRecord

namespace Runtime

def provenanceOf (session : CompilerSession) (phase : PhaseRecord) (r : Reservation)
    (kind : String) (verdict : AuthorityVerdict) (detail : Bytes) : ProvenanceRecord :=
  { kind := ascii kind
    session := ⟨session.id,session.generation⟩
    phase := ⟨phase.id,phase.generation⟩
    invocation := r.invocation
    toolchain := session.toolchain
    target := session.target
    environment := session.environment
    policy := session.policy
    source := session.source
    inputs := phase.inputs
    outputs := phase.outputs
    adapter := session.adapterName
    verdict := verdict
    detail := detail }

def appendProvenance (w : World) (record : ProvenanceRecord) : Op ProvenanceId := fun rt =>
  let (id,provenance) := rt.provenance.append record w.now
  (.ok id,{ rt with provenance })

def modifyArtifact (f : IntermediateArtifact → IntermediateArtifact)
    (reference : Ref .intermediate) : Op Unit :=
  modify fun rt => { rt with artifacts := rt.artifacts.modify reference.id f }

/-- `artifacts.set_authority(.., authoritative)`; the caller looks at no refusal. -/
def promote (reference : Ref .intermediate) : Op Unit :=
  modify fun rt => { rt with artifacts := (rt.artifacts.setAuthority reference.id .authoritative).1 }

def nextCommit : Op CommitId := fun rt =>
  let (id,commitIds) := rt.commitIds.next
  (.ok id,{ rt with commitIds,issued := rt.issued++[(.commit,id.value)] })

def nextFinal : Op FinalArtifactId := fun rt =>
  let (id,finalIds) := rt.finalIds.next
  (.ok id,{ rt with finalIds,issued := rt.issued++[(.artifact,id.value)] })

/-- The refusals of `commit_reserved` that leave everything as it is. -/
def committable (rt : Runtime) (r : Reservation) : Result (CompilerSession × PhaseRecord) := do
  let session ← rt.requireSession r.session (.of .notFound "session disappeared before commit")
  let phase ← session.requirePhase r.phase (.of .notFound "phase disappeared before commit")
  ensure (phase.generation=r.phaseGeneration)
    (.of .stalePhaseGeneration "phase generation moved before commit")
  ensure (phase.activeInvocation=r.invocation)
    (.of .staleInvocation "invocation is no longer current")
  ensure (phase.state=.commitReady) ⟨.illegalTransition,
    ascii "phase is "++ascii phase.state.text++ascii ", not COMMIT_READY"⟩
  return (session,phase)

/-- The toolchain is probed again where an adapter and a registered toolchain exist. -/
def reprobe (w : World) (r : Reservation) (session : CompilerSession) (phase : PhaseRecord) :
    Op Unit := do
  let rt ← get
  if (rt.findAdapterByName session.adapterName).isSome ∧
      (rt.toolchains.find session.toolchain.id).isSome then
    match w.reprobed with
    | .error e => do
        let detail := ascii "toolchain could not be re-probed at commit: "++e.message
        modify fun rt => { rt with staleCommitTotal := rt.staleCommitTotal+1 }
        modify (·.modifyPhase r.session r.phase (·.unprobed detail w.now))
        revokeOutputs phase.id phase.generation detail
        modify (·.modifySession r.session (·.advanced))
        persistSession w r.session
        fail ⟨.staleToolchainGeneration,detail⟩
    | .ok observed => do
        let (mutation,toolchains) ← ofExcept (rt.toolchains.refresh observed)
        modify fun rt => { rt with toolchains }
        if mutation.mutated then do
          let _ ← recordEvidence
  else pure ()

/-- Authority at commit time. The session generation is bookkeeping and taken as bound. -/
def commitVerdict (rt : Runtime) (w : World) (r : Reservation) (session : CompilerSession)
    (phase : PhaseRecord) : AuthorityVerdict :=
  compareAuthority r.authority { rt.observe session with
    phaseGeneration := phase.generation
    attemptGeneration := phase.attemptGeneration
    lease := phase.lease
    leaseHeld := rt.leases.isHeld phase.lease w.now
    sessionGeneration := r.authority.sessionGeneration }

def refuseCommit (w : World) (r : Reservation) (phase : PhaseRecord)
    (verdict : AuthorityVerdict) : Op PhaseRunReport := do
  let detail := ascii "commit refused: "++ascii verdict.text
  modify fun rt => { rt with staleCommitTotal := rt.staleCommitTotal+1 }
  modify (·.modifyPhase r.session r.phase (·.commitRefused verdict detail w.now))
  revokeOutputs phase.id phase.generation detail
  revokeLease phase.lease.id detail
  modify (·.modifySession r.session fun s => s.advanced.touched w.now)
  let session ← ofExcept ((← get).requireSession r.session
    (.of .notFound "session disappeared before commit"))
  let _ ← appendProvenance w
    (provenanceOf session phase r "phase-commit-refused" verdict detail)
  persistSession w r.session
  return {
    phase := ⟨phase.id,phase.generation⟩
    state := .fenced
    status := verdict.toStatusCode
    failure := .authorityInvalidated
    authority := verdict
    detail := detail
    diagnostics := phase.diagnostics
    invocation := r.invocation
    outputs := phase.outputs }

/-- Whether a committed phase may register a final candidate. -/
def concludes (session : CompilerSession) (phase : PhaseRecord) : Bool :=
  phase.kind=.finalize || phase.kind=.link || session.plan.order.getLast?=some phase.id

/-- The image among the outputs a candidate is made of. -/
def finalImage (artifacts : ArtifactRegistry) (outputs : List (Ref .intermediate)) :
    Option IntermediateArtifact :=
  (outputs.filterMap fun reference => artifacts.find reference.id).find? fun a =>
    a.format=.coffImage || a.format=.elf

/-- One evidence identity for each check of the phase's last validation, and its detail. -/
def citeValidation (phase : CompilerPhaseId) : Op (List EvidenceId) := fun rt =>
  match rt.lastValidation[phase.value]? with
  | none => (.ok [],rt)
  | some validation =>
      let cited := validation.checks++if validation.detail.isEmpty then [] else [validation.detail]
      let step (s : List EvidenceId × IdAllocator .evidence) (_ : Bytes) :=
        (s.1++[s.2.next.1],s.2.next.2)
      let (ids,evidenceIds) := cited.foldl step ([],rt.evidenceIds)
      (.ok ids,{ rt with evidenceIds })

def lineageDigest (artifacts : ArtifactRegistry) (lineage : List (Ref .intermediate)) : Digest :=
  .of (lineage.flatMap fun reference =>
    ((artifacts.find reference.id).map fun a => canonicalText a.canonicalDigest.toHex).getD [])

/-- The final candidate of a committed projection, where the phase brings an image. -/
def conclude (w : World) (session : CompilerSession) (phase : PhaseRecord) :
    Op (Option FinalCandidate) := do
  let rt ← get
  if concludes session phase then
    match finalImage rt.artifacts phase.outputs with
    | none => return none
    | some artifact => do
        let id ← nextFinal
        let evidence ← citeValidation phase.id
        let lineage := session.intermediates.insertionSort fun a b => a.id.value ≤ b.id.value
        return some {
          id := id
          generation := .initial
          compilation := session.compilation
          compilationGeneration := session.compilationGeneration
          attemptGeneration := session.attemptGeneration
          session := ⟨session.id,session.generation⟩
          toolchain := session.toolchain
          target := session.target
          environment := session.environment
          policy := session.policy
          source := session.source
          irGeneration := session.irGeneration
          format := artifact.format
          path := artifact.path
          content := artifact.content
          sizeBytes := artifact.sizeBytes
          lineage := lineage
          validationEvidence := evidence
          lineageDigest := lineageDigest rt.artifacts lineage
          completeLineage := true
          registeredAtNanos := w.now }
  else return none

end Runtime

namespace CompilerSession

/-- The projection a commit publishes, before a candidate is considered. -/
def committedPhase (session : CompilerSession) (phase : CompilerPhaseId) (commit : CommitId)
    (now : UInt64) : CompilerSession :=
  let committed := { session.modifyPhase phase (·.committed commit now) with
    generation := session.generation.next
    updatedAtNanos := now }
  if committed.candidatePresent ∧ committed.allMandatoryCommitted then
    { committed with state := .committed }
  else committed

def withCandidate (session : CompilerSession) (candidate : Option FinalCandidate) :
    CompilerSession :=
  match candidate with
  | none => session
  | some candidate =>
      let session := { session with candidate,candidatePresent := true }
      if session.allMandatoryCommitted then { session with state := .committed } else session

end CompilerSession

namespace Runtime

/-- `commit_reserved` up to its persist. Provenance is attached and the outputs are made
authoritative in the live registry; the session is a copy. -/
def stage (w : World) (r : Reservation) (session : CompilerSession) (phase : PhaseRecord) :
    Op (ProvenanceId × CompilerSession × Bool) := do
  let provenance ← appendProvenance w (provenanceOf session phase r "phase-committed" .valid
    (ascii "phase committed with current authority"))
  forEach (modifyArtifact fun a => { a with provenance }) phase.outputs
  let commit ← nextCommit
  forEach promote phase.outputs
  let projected := session.committedPhase phase.id commit w.now
  let candidate ← conclude w projected (phase.committed commit w.now)
  return (provenance,projected.withCandidate candidate,candidate.isSome)

/-- `commit_reserved` once the copy is published. -/
def release (phase : PhaseRecord) (provenance : ProvenanceId) : Op Unit := do
  let live := ((← get).provenance.find provenance).map (·.id)
  forEach (modifyArtifact fun a => { a with
    provenance := live.getD a.provenance
    generation := a.generation.next }) phase.outputs
  revokeLease phase.lease.id (ascii "phase committed")
  modify fun rt => { rt with commitTotal := rt.commitTotal+1 }

/-- The publishing part of `commit_reserved`. -/
def publish (w : World) (r : Reservation) (report : ExecutionReport) (session : CompilerSession)
    (phase : PhaseRecord) : Op PhaseRunReport := do
  let (provenance,committed,concluded) ← stage w r session phase
  persist w committed
  modify (·.modifySession r.session fun _ => committed)
  release phase provenance
  return {
    phase := ⟨phase.id,phase.generation⟩
    state := .committed
    diagnostics := phase.diagnostics
    invocation := r.invocation
    process := report.process.id
    outputs := phase.outputs
    detail := ascii (if concluded then "phase committed and final candidate registered"
      else "phase committed") }

def commitReserved (w : World) (r : Reservation) (report : ExecutionReport) :
    Op PhaseRunReport := do
  let (session,phase) ← ofExcept ((← get).committable r)
  reprobe w r session phase
  let verdict := (← get).commitVerdict w r session phase
  if verdict=.valid then publish w r report session phase
  else refuseCommit w r phase verdict

end Runtime

end CompilerFabric
