import CompilerFabric.Core.Toolchain

namespace CompilerFabric

inductive ArtifactState
  | unknown | valid | stale | incompatible | corrupt | superseded | unsupported
deriving DecidableEq

namespace ArtifactState

def values : List ArtifactState :=
  [unknown,valid,stale,incompatible,corrupt,superseded,unsupported]

def text : ArtifactState → String
  | unknown => "UNKNOWN" | valid => "VALID" | stale => "STALE"
  | incompatible => "INCOMPATIBLE" | corrupt => "CORRUPT" | superseded => "SUPERSEDED"
  | unsupported => "UNSUPPORTED"

def isConsumable (s : ArtifactState) : Bool := s=.valid

end ArtifactState

inductive AuthorityState
  | candidate | authoritative | revoked | none
deriving DecidableEq

namespace AuthorityState

def values : List AuthorityState := [candidate,authoritative,revoked,none]

def text : AuthorityState → String
  | candidate => "CANDIDATE" | authoritative => "AUTHORITATIVE" | revoked => "REVOKED"
  | none => "NONE"

end AuthorityState

structure IntermediateArtifact where
  id : IntermediateArtifactId := {}
  generation : Generation .intermediate := {}
  format : ObjectFormat := .unknown
  path : Bytes := []
  content : Digest := {}
  sizeBytes : UInt64 := 0
  producerPhase : Ref .phase := {}
  producerInvocation : Ref .invocation := {}
  toolchain : Ref .toolchain := {}
  target : Ref .target := {}
  source : Ref .source := {}
  irGeneration : IRGeneration := {}
  environment : Ref .environment := {}
  policy : Ref .policy := {}
  lineageInputs : List (Ref .intermediate) := []
  state : ArtifactState := .unknown
  authority : AuthorityState := .none
  provenance : ProvenanceId := {}
  validationDetail : Bytes := []
  declaredDigest : Digest := {}
  current : Bool := false
deriving DecidableEq

def IntermediateArtifact.canonicalDigest (a : IntermediateArtifact) : Digest :=
  .of (canonicalText a.id.toText++canonicalU64 a.generation.value.toNat++
    canonicalText (ascii a.format.text)++canonicalText (canonicalPathKey a.path)++
    canonicalText a.content.toHex++canonicalU64 a.sizeBytes.toNat++
    canonicalText a.producerPhase.toText++canonicalText a.producerInvocation.toText++
    canonicalText a.toolchain.toText++canonicalText a.target.toText++
    canonicalText a.source.toText++canonicalU64 a.irGeneration.value.toNat++
    canonicalText a.environment.toText++canonicalText a.policy.toText++
    (sortBytes (a.lineageInputs.map (·.toText))).flatMap canonicalText++
    canonicalText (ascii a.state.text)++canonicalText (ascii a.authority.text)++
    canonicalText a.provenance.toText++canonicalText a.declaredDigest.toHex)

structure ArtifactRegistry where
  entries : Table IntermediateArtifact := ∅
  byPhase : Table (List IntermediateArtifactId) := ∅
  allocator : IdAllocator .intermediate := {}

namespace ArtifactRegistry

def kMaxArtifacts : Nat := 65536

def find (r : ArtifactRegistry) (id : IntermediateArtifactId) : Option IntermediateArtifact :=
  r.entries[id.value]?

def indexPhase (r : ArtifactRegistry) (phase : CompilerPhaseId) (id : IntermediateArtifactId) :
    Table (List IntermediateArtifactId) :=
  r.byPhase.insert phase.value (r.byPhase.getD phase.value []++[id])

def registerArtifact (r : ArtifactRegistry) (artifact : IntermediateArtifact) :
    Result (Ref .intermediate × ArtifactRegistry) :=
  if kMaxArtifacts ≤ r.entries.size then refuse .capacityExceeded "artifact registry is full"
  else
    let (id,allocator) := r.allocator.next
    let artifact := { artifact with id,generation := .initial }
    .ok (⟨id,.initial⟩,
      ⟨r.entries.insertIfNew id.value artifact,r.indexPhase artifact.producerPhase.id id,
        allocator⟩)

def registerArtifactAs (r : ArtifactRegistry) (id : IntermediateArtifactId)
    (artifact : IntermediateArtifact) : Result (Ref .intermediate × ArtifactRegistry) :=
  if !id.present then refuse .invalidIdentity "artifact identity is absent"
  else
    let generation := if artifact.generation.present then artifact.generation else .initial
    .ok (⟨id,generation⟩,
      ⟨r.entries.insert id.value { artifact with id,generation },
        r.indexPhase artifact.producerPhase.id id,r.allocator.observe id⟩)

def modify (r : ArtifactRegistry) (id : IntermediateArtifactId)
    (f : IntermediateArtifact → IntermediateArtifact) : ArtifactRegistry :=
  { r with entries := r.entries.modify id.value f }

/-- What `set_state` does to a registered artifact; an unregistered one is refused. -/
def withState (state : ArtifactState) (detail : Bytes) (a : IntermediateArtifact) :
    IntermediateArtifact :=
  if !state.isConsumable && a.authority=.authoritative then
    { a with state,validationDetail := detail,authority := .revoked,current := false }
  else { a with state,validationDetail := detail }

def setState (r : ArtifactRegistry) (id : IntermediateArtifactId) (state : ArtifactState)
    (detail : Bytes) : ArtifactRegistry × Result Unit :=
  match r.find id with
  | none => (r,.error ⟨.notFound,ascii "artifact is not registered: "++id.toText⟩)
  | some _ => (r.modify id (withState state detail),.ok ())

def setAuthority (r : ArtifactRegistry) (id : IntermediateArtifactId)
    (authority : AuthorityState) : ArtifactRegistry × Result Unit :=
  match r.find id with
  | none => (r,.error ⟨.notFound,ascii "artifact is not registered: "++id.toText⟩)
  | some a =>
      if authority=.authoritative ∧ !a.state.isConsumable then
        (r,.error ⟨.notAuthoritative,
          ascii "artifact cannot be authoritative while its state is "++ascii a.state.text⟩)
      else
        (r.modify id fun a => { a with authority,current := authority=.authoritative },.ok ())

/-- What `revoke_phase_outputs` does to one artifact of the phase. -/
def revoked (generation : CompilerPhaseGeneration) (detail : Bytes) (a : IntermediateArtifact) :
    IntermediateArtifact :=
  if a.producerPhase.generation ≠ generation then a
  else { a with
    authority := .revoked
    current := false
    state := if a.state=.valid then .superseded else a.state
    validationDetail := if detail.isEmpty then a.validationDetail else detail }

def revokePhaseOutputs (r : ArtifactRegistry) (phase : CompilerPhaseId)
    (generation : CompilerPhaseGeneration) (detail : Bytes) : ArtifactRegistry :=
  (r.byPhase.getD phase.value []).foldl (fun r id => r.modify id (revoked generation detail)) r

/-- What the file system showed for an artifact's path. -/
inductive FileProbe
  | missing | unreadable | content (digest : Digest)
deriving DecidableEq

def withdrawn (state : ArtifactState) (detail : String) (a : IntermediateArtifact) :
    IntermediateArtifact :=
  { a with state,authority := .revoked,current := false,validationDetail := ascii detail }

def revalidate (r : ArtifactRegistry) (id : IntermediateArtifactId) (probe : FileProbe) :
    ArtifactRegistry × Result ArtifactState :=
  match r.find id with
  | none => (r,.error ⟨.notFound,ascii "artifact is not registered: "++id.toText⟩)
  | some a =>
      if a.path.isEmpty then
        (r,refuse .invalidArgument "artifact has no path to revalidate")
      else match probe with
        | .missing =>
            (r.modify id (withdrawn .stale "artifact file is missing at its recorded path"),
              .ok .stale)
        | .unreadable =>
            (r.modify id (withdrawn .unknown "artifact content could not be hashed"),
              .ok .unknown)
        | .content observed =>
            if observed ≠ a.content then
              (r.modify id (withdrawn .corrupt
                "artifact content no longer matches its recorded digest"),.ok .corrupt)
            else
              (r.modify id fun a => { a with
                validationDetail := ascii "artifact content matches its recorded digest" },
                .ok a.state)

end ArtifactRegistry

structure FinalCandidate where
  id : FinalArtifactId := {}
  generation : Generation .artifact := {}
  compilation : CompilationId := {}
  compilationGeneration : CompilationGeneration := {}
  attemptGeneration : AttemptGeneration := {}
  session : Ref .session := {}
  toolchain : Ref .toolchain := {}
  target : Ref .target := {}
  environment : Ref .environment := {}
  policy : Ref .policy := {}
  source : Ref .source := {}
  irGeneration : IRGeneration := {}
  format : ObjectFormat := .unknown
  path : Bytes := []
  content : Digest := {}
  sizeBytes : UInt64 := 0
  lineage : List (Ref .intermediate) := []
  validationEvidence : List EvidenceId := []
  provenance : ProvenanceId := {}
  lineageDigest : Digest := {}
  completeLineage : Bool := false
  registeredAtNanos : UInt64 := 0
  handedOff : Bool := false
deriving DecidableEq

structure PhaseAuthority where
  sessionGeneration : CompilerSessionGeneration := {}
  compilationGeneration : CompilationGeneration := {}
  attemptGeneration : AttemptGeneration := {}
  phaseGeneration : CompilerPhaseGeneration := {}
  toolchain : Ref .toolchain := {}
  cooperatingToolchains : List (Ref .toolchain) := []
  target : Ref .target := {}
  environment : Ref .environment := {}
  policy : Ref .policy := {}
  source : Ref .source := {}
  irGeneration : IRGeneration := {}
  lease : Ref .lease := {}
deriving DecidableEq

/-- The verdicts, as stored: a decoder casts the byte unchecked. -/
structure AuthorityVerdict where
  raw : UInt8 := 0
deriving DecidableEq

namespace AuthorityVerdict

def valid : AuthorityVerdict := ⟨0⟩
def staleSession : AuthorityVerdict := ⟨1⟩
def staleCompilation : AuthorityVerdict := ⟨2⟩
def staleAttempt : AuthorityVerdict := ⟨3⟩
def stalePhase : AuthorityVerdict := ⟨4⟩
def staleToolchain : AuthorityVerdict := ⟨5⟩
def staleTarget : AuthorityVerdict := ⟨6⟩
def staleEnvironment : AuthorityVerdict := ⟨7⟩
def stalePolicy : AuthorityVerdict := ⟨8⟩
def staleSource : AuthorityVerdict := ⟨9⟩
def staleIr : AuthorityVerdict := ⟨10⟩
def staleLease : AuthorityVerdict := ⟨11⟩
def staleComponent : AuthorityVerdict := ⟨12⟩
def toolchainRetired : AuthorityVerdict := ⟨13⟩
def targetRetired : AuthorityVerdict := ⟨14⟩
def environmentRetired : AuthorityVerdict := ⟨15⟩
def policyRetired : AuthorityVerdict := ⟨16⟩

def text (v : AuthorityVerdict) : String :=
  match v.raw.toNat with
  | 0 => "VALID" | 1 => "STALE_SESSION" | 2 => "STALE_COMPILATION" | 3 => "STALE_ATTEMPT"
  | 4 => "STALE_PHASE" | 5 => "STALE_TOOLCHAIN" | 6 => "STALE_TARGET"
  | 7 => "STALE_ENVIRONMENT" | 8 => "STALE_POLICY" | 9 => "STALE_SOURCE" | 10 => "STALE_IR"
  | 11 => "STALE_LEASE" | 12 => "STALE_COMPONENT" | 13 => "TOOLCHAIN_RETIRED"
  | 14 => "TARGET_RETIRED" | 15 => "ENVIRONMENT_RETIRED" | 16 => "POLICY_RETIRED"
  | _ => "UNKNOWN"

def toStatusCode (v : AuthorityVerdict) : StatusCode :=
  match v.raw.toNat with
  | 0 => .ok | 1 => .staleSessionGeneration | 2 => .staleCompilationGeneration
  | 3 => .staleAttemptGeneration | 4 => .stalePhaseGeneration | 5 => .staleToolchainGeneration
  | 6 => .staleTargetGeneration | 7 => .staleEnvironmentGeneration
  | 8 => .stalePolicyGeneration | 9 => .staleSourceGeneration | 10 => .staleIrGeneration
  | 11 => .staleLeaseGeneration | 12 => .staleComponentGeneration | 13 => .toolchainNotFound
  | 14 => .targetUnsupported | 15 => .staleEnvironmentGeneration | 16 => .stalePolicyGeneration
  | _ => .integrityUnproven

end AuthorityVerdict

structure AuthorityObservation extends PhaseAuthority where
  sessionActive : Bool := true
  toolchainCurrent : Bool := true
  targetCurrent : Bool := true
  environmentCurrent : Bool := true
  policyCurrent : Bool := true
  sourceCurrent : Bool := true
  leaseHeld : Bool := true
  componentCurrent : Bool := true
deriving DecidableEq

/-- A bound reference that is present and no longer the observed one. -/
def Ref.moved {tag : IdTag} (bound current : Ref tag) : Bool := bound.present && bound ≠ current

open AuthorityVerdict in
/-- `compare_authority`: the first mismatch names the verdict. -/
def compareAuthority (bound : PhaseAuthority) (current : AuthorityObservation) :
    AuthorityVerdict :=
  if !current.sessionActive then staleSession
  else if bound.sessionGeneration ≠ current.sessionGeneration then staleSession
  else if bound.compilationGeneration ≠ current.compilationGeneration then staleCompilation
  else if bound.attemptGeneration ≠ current.attemptGeneration then staleAttempt
  else if bound.phaseGeneration ≠ current.phaseGeneration then stalePhase
  else if !current.toolchainCurrent then toolchainRetired
  else if bound.toolchain.moved current.toolchain then staleToolchain
  else if bound.cooperatingToolchains ≠ current.cooperatingToolchains then staleToolchain
  else if !current.componentCurrent then staleComponent
  else if !current.targetCurrent then targetRetired
  else if bound.target.moved current.target then staleTarget
  else if !current.environmentCurrent then environmentRetired
  else if bound.environment.moved current.environment then staleEnvironment
  else if !current.policyCurrent then policyRetired
  else if bound.policy.moved current.policy then stalePolicy
  else if !current.sourceCurrent then staleSource
  else if bound.source.moved current.source then staleSource
  else if bound.irGeneration.present ∧ bound.irGeneration ≠ current.irGeneration then staleIr
  else if bound.lease.present ∧ !current.leaseHeld then staleLease
  else if bound.lease.moved current.lease then staleLease
  else valid

theorem Ref.moved_eq_false {tag : IdTag} {bound current : Ref tag} :
    bound.moved current=false ↔ (bound.present → bound=current) := by
  simp [moved]

/-- What a valid verdict attests. -/
structure PhaseAuthority.Upheld (bound : PhaseAuthority) (current : AuthorityObservation) : Prop where
  active : current.sessionActive
  session : bound.sessionGeneration=current.sessionGeneration
  compilation : bound.compilationGeneration=current.compilationGeneration
  attempt : bound.attemptGeneration=current.attemptGeneration
  phase : bound.phaseGeneration=current.phaseGeneration
  toolchainCurrent : current.toolchainCurrent
  toolchain : bound.toolchain.present → bound.toolchain=current.toolchain
  cooperating : bound.cooperatingToolchains=current.cooperatingToolchains
  component : current.componentCurrent
  targetCurrent : current.targetCurrent
  target : bound.target.present → bound.target=current.target
  environmentCurrent : current.environmentCurrent
  environment : bound.environment.present → bound.environment=current.environment
  policyCurrent : current.policyCurrent
  policy : bound.policy.present → bound.policy=current.policy
  sourceCurrent : current.sourceCurrent
  source : bound.source.present → bound.source=current.source
  ir : bound.irGeneration.present → bound.irGeneration=current.irGeneration
  held : bound.lease.present → current.leaseHeld
  lease : bound.lease.present → bound.lease=current.lease

theorem compareAuthority_valid {bound : PhaseAuthority} {current : AuthorityObservation}
    (h : compareAuthority bound current=.valid) : bound.Upheld current := by
  have other {p : Prop} [Decidable p] {v x : AuthorityVerdict} (hv : v ≠ .valid)
      (h : (if p then v else x)=.valid) : ¬p ∧ x=.valid := by
    by_cases hp : p
    · rw [if_pos hp] at h
      exact absurd h hv
    · rw [if_neg hp] at h
      exact ⟨hp,h⟩
  unfold compareAuthority at h
  have ⟨h₁,h⟩ := other (by decide) h
  have ⟨h₂,h⟩ := other (by decide) h
  have ⟨h₃,h⟩ := other (by decide) h
  have ⟨h₄,h⟩ := other (by decide) h
  have ⟨h₅,h⟩ := other (by decide) h
  have ⟨h₆,h⟩ := other (by decide) h
  have ⟨h₇,h⟩ := other (by decide) h
  have ⟨h₈,h⟩ := other (by decide) h
  have ⟨h₉,h⟩ := other (by decide) h
  have ⟨h₁₀,h⟩ := other (by decide) h
  have ⟨h₁₁,h⟩ := other (by decide) h
  have ⟨h₁₂,h⟩ := other (by decide) h
  have ⟨h₁₃,h⟩ := other (by decide) h
  have ⟨h₁₄,h⟩ := other (by decide) h
  have ⟨h₁₅,h⟩ := other (by decide) h
  have ⟨h₁₆,h⟩ := other (by decide) h
  have ⟨h₁₇,h⟩ := other (by decide) h
  have ⟨h₁₈,h⟩ := other (by decide) h
  have ⟨h₁₉,h⟩ := other (by decide) h
  have ⟨h₂₀,_⟩ := other (by decide) h
  simp only [Bool.not_eq_true,Ref.moved_eq_false,Bool.not_eq_false,Bool.not_eq_eq_eq_not,
    Bool.not_true,not_not,not_and] at h₁ h₂ h₃ h₄ h₅ h₆ h₇ h₈ h₉ h₁₀ h₁₁ h₁₂ h₁₃ h₁₄ h₁₅ h₁₆ h₁₇ h₁₈ h₁₉ h₂₀
  exact ⟨h₁,h₂,h₃,h₄,h₅,h₆,h₇,h₈,h₉,h₁₀,h₁₁,h₁₂,h₁₃,h₁₄,h₁₅,h₁₆,h₁₇,h₁₈,h₁₉,h₂₀⟩

theorem compareAuthority_eq_valid {bound : PhaseAuthority} {current : AuthorityObservation} :
    compareAuthority bound current=.valid ↔ bound.Upheld current := by
  constructor
  · exact compareAuthority_valid
  · intro h
    have moved {tag : IdTag} {b c : Ref tag} (hb : b.present → b=c) : b.moved c=false :=
      Ref.moved_eq_false.2 hb
    have hi : ¬(bound.irGeneration.present ∧ bound.irGeneration ≠ current.irGeneration) :=
      fun hi => hi.2 (h.ir hi.1)
    simp [compareAuthority,h.active,h.session,h.compilation,h.attempt,h.phase,h.toolchainCurrent,
      moved h.toolchain,h.cooperating,h.component,h.targetCurrent,moved h.target,
      h.environmentCurrent,moved h.environment,h.policyCurrent,moved h.policy,h.sourceCurrent,
      moved h.source,hi,moved h.lease]
    intro hp hn
    rw [h.held hp] at hn
    cases hn

structure Lease where
  id : LeaseId := {}
  generation : Generation .lease := {}
  session : Ref .session := {}
  phase : Ref .phase := {}
  grantedAtNanos : UInt64 := 0
  expiresAtNanos : UInt64 := 0
  held : Bool := true
  reason : Bytes := []
deriving DecidableEq

def Lease.heldAt (l : Lease) (now : UInt64) : Bool :=
  l.held && (l.expiresAtNanos=0 || now ≤ l.expiresAtNanos)

structure LeaseTable where
  entries : Table Lease := ∅
  allocator : IdAllocator .lease := {}

namespace LeaseTable

def find (t : LeaseTable) (id : LeaseId) : Option Lease := t.entries[id.value]?

def grant (t : LeaseTable) (session : Ref .session) (phase : Ref .phase) (ttl now : UInt64)
    (reason : Bytes) : Ref .lease × LeaseTable :=
  let (id,allocator) := t.allocator.next
  let lease := { id,generation := .initial,session,phase,grantedAtNanos := now
                 expiresAtNanos := if ttl=0 then 0 else now+ttl,held := true,reason }
  (⟨id,.initial⟩,⟨t.entries.insertIfNew id.value lease,allocator⟩)

/-- What `revoke` does to a registered lease. -/
def revokedLease (reason : Bytes) (l : Lease) : Lease :=
  if l.held then { l with held := false,generation := l.generation.next,reason } else l

def revoke (t : LeaseTable) (id : LeaseId) (reason : Bytes) : LeaseTable :=
  { t with entries := t.entries.modify id.value (revokedLease reason) }

def revokePhase (t : LeaseTable) (phase : CompilerPhaseId) (reason : Bytes) : LeaseTable :=
  { t with entries := t.entries.map fun _ l =>
      if l.phase.id=phase then revokedLease reason l else l }

def isHeld (t : LeaseTable) (reference : Ref .lease) (now : UInt64) : Bool :=
  match t.find reference.id with
  | none => false
  | some l => l.generation=reference.generation && l.heldAt now

end LeaseTable

inductive DiagnosticSeverity
  | info | warning | error | fatal | internal | unknown
deriving DecidableEq

def DiagnosticSeverity.values : List DiagnosticSeverity :=
  [info,warning,error,fatal,internal,unknown]

structure Diagnostic where
  severity : DiagnosticSeverity := .unknown
  code : Bytes := []
  message : Bytes := []
  file : Bytes := []
  line : UInt32 := 0
  column : UInt32 := 0
  origin : Bytes := []
  raw : Bytes := []
deriving DecidableEq

structure DiagnosticSet where
  id : DiagnosticSetId := {}
  generation : Generation .diagnostics := {}
  invocation : Ref .invocation := {}
  phase : Ref .phase := {}
  toolchain : Ref .toolchain := {}
  target : Ref .target := {}
  entries : List Diagnostic := []
  normalized : Bool := false
  truncated : Bool := false
  rawStdoutBytes : UInt64 := 0
  rawStderrBytes : UInt64 := 0
  droppedStdoutBytes : UInt64 := 0
  droppedStderrBytes : UInt64 := 0
  rawStdoutTail : Bytes := []
  rawStderrTail : Bytes := []
  exitCode : Int32 := 0
  processCrashed : Bool := false
  errorCount : UInt32 := 0
  warningCount : UInt32 := 0
deriving DecidableEq

def DiagnosticSet.kMaxEntries : Nat := 4096
def DiagnosticSet.kMaxRawTailBytes : Nat := 16384

structure DiagnosticStore where
  entries : Table DiagnosticSet := ∅
  allocator : IdAllocator .diagnostics := {}

namespace DiagnosticStore

def kMaxSets : Nat := 16384

def find (s : DiagnosticStore) (id : DiagnosticSetId) : Option DiagnosticSet :=
  s.entries[id.value]?

def add (s : DiagnosticStore) (set : DiagnosticSet) :
    Result (Ref .diagnostics × DiagnosticStore) :=
  if kMaxSets ≤ s.entries.size then refuse .capacityExceeded "diagnostic store is full"
  else
    let (id,allocator) := s.allocator.next
    .ok (⟨id,.initial⟩,
      ⟨s.entries.insertIfNew id.value { set with id,generation := .initial },allocator⟩)

def addAs (s : DiagnosticStore) (id : DiagnosticSetId) (set : DiagnosticSet) :
    Result (Ref .diagnostics × DiagnosticStore) :=
  if !id.present then refuse .invalidIdentity "diagnostic set identity is absent"
  else
    let generation := if set.generation.present then set.generation else .initial
    .ok (⟨id,generation⟩,
      ⟨s.entries.insert id.value { set with id,generation },s.allocator.observe id⟩)

end DiagnosticStore

structure ProvenanceRecord where
  id : ProvenanceId := {}
  generation : EvidenceGeneration := {}
  kind : Bytes := []
  session : Ref .session := {}
  compilation : Ref .compilation := {}
  phase : Ref .phase := {}
  invocation : Ref .invocation := {}
  toolchain : Ref .toolchain := {}
  target : Ref .target := {}
  environment : Ref .environment := {}
  policy : Ref .policy := {}
  source : Ref .source := {}
  inputs : List (Ref .intermediate) := []
  outputs : List (Ref .intermediate) := []
  adapter : Bytes := []
  verdict : AuthorityVerdict := .valid
  detail : Bytes := []
  atNanos : UInt64 := 0
deriving DecidableEq

structure ProvenanceLog where
  records : List ProvenanceRecord := []
  allocator : IdAllocator .provenance := {}
  truncated : Bool := false

namespace ProvenanceLog

def kMaxRecords : Nat := 65536
def kMaxDetailBytes : Nat := 2048

def push (l : ProvenanceLog) (record : ProvenanceRecord) (allocator : IdAllocator .provenance) :
    ProvenanceLog :=
  let full : Bool := kMaxRecords ≤ l.records.length
  ⟨(if full then l.records.drop 1 else l.records)++[record],allocator,l.truncated || full⟩

def append (l : ProvenanceLog) (record : ProvenanceRecord) (now : UInt64) :
    ProvenanceId × ProvenanceLog :=
  let (id,allocator) := l.allocator.next
  let record := { record with
    id := id
    generation := ⟨id.value⟩
    detail := record.detail.take kMaxDetailBytes
    atNanos := if record.atNanos=0 then now else record.atNanos }
  (id,l.push record allocator)

def appendAs (l : ProvenanceLog) (record : ProvenanceRecord) : ProvenanceLog :=
  l.push { record with detail := record.detail.take kMaxDetailBytes }
    (l.allocator.observe record.id)

def find (l : ProvenanceLog) (id : ProvenanceId) : Option ProvenanceRecord :=
  l.records.find? (·.id=id)

end ProvenanceLog

end CompilerFabric
