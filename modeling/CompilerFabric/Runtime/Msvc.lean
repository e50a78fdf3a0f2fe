import CompilerFabric.Core.Coff
import CompilerFabric.Runtime.Commit

namespace CompilerFabric

/-- `path::filename`: what follows the last separator, after the root name. -/
def pathFilename (path : Bytes) : Bytes :=
  ((path.drop (rootNameEnd path)).reverse.takeWhile fun c => !isSlash c).reverse

/-- The number of the machine in COFF headers. -/
def coffMachineFor (a : Architecture) : UInt16 :=
  match a.raw.toNat with
  | 1 => 0x014C | 2 => 0x8664 | 3 => 0x01C0 | 4 => 0xAA64 | _ => 0

def hex16 (value : UInt16) : Bytes :=
  ascii "0x"++[3,2,1,0].map fun i => hexDigit (value.toNat/16^i%16)

/-- What `validate_outputs` is given of the phase, the registry and the process. -/
structure OutputValidationRequest where
  kind : PhaseKind := .unknown
  architecture : Architecture := .unknown
  adapterOptions : List EnvironmentVariable := []
  process : Option ProcessOutcome := none
  artifacts : ArtifactRegistry := {}
  candidateOutputs : List (Ref .intermediate) := []

def OutputValidationRequest.optionOr (request : OutputValidationRequest) (name fallback : Bytes) :
    Bytes :=
  ((request.adapterOptions.find? fun entry => equalsAsciiCi entry.name name).map
    (·.value)).getD fallback

def ValidationEvidence.checked (evidence : ValidationEvidence) (check : Bytes) :
    ValidationEvidence :=
  { evidence with checks := evidence.checks++[check] }

def ValidationEvidence.refused (evidence : ValidationEvidence) (refusal : StatusCode)
    (state : ArtifactState) (detail : Bytes) : ValidationEvidence :=
  { evidence with refusal,state,detail }

def ValidationEvidence.granted (evidence : ValidationEvidence) (detail : Bytes) :
    ValidationEvidence :=
  { evidence with accepted := true,state := .valid,detail }

namespace MsvcAdapter

/-- A refused inspection is the verdict on the phase; anything worse is passed on. -/
def inspected {α : Type} (evidence : ValidationEvidence) (x : Inspection α)
    (next : α → Inspection ValidationEvidence) : Inspection ValidationEvidence :=
  match x with
  | .error (.refused status) => .ok (evidence.refused status.code .corrupt status.message)
  | .error halt => .error halt
  | .ok a => next a

/-- The loop over the objects of a compile phase. -/
def validateObjects (files : Bytes → FileView) (request : OutputValidationRequest) :
    List (Ref .intermediate) → ValidationEvidence → Inspection ValidationEvidence
  | [],evidence => .ok (evidence.granted (ascii "object file validated"))
  | reference::rest,evidence =>
      match request.artifacts.find reference.id with
      | none => .ok (evidence.refused .outputMissing .stale
          (ascii "candidate object is not registered"))
      | some artifact =>
          let evidence := evidence.checked (ascii "object exists: "++pathFilename artifact.path)
          if files artifact.path=.missing then .ok (evidence.refused .outputMissing .stale
            (ascii "object file is missing: "++artifact.path))
          else if artifact.sizeBytes=0 then .ok (evidence.refused .outputEmpty .corrupt
            (ascii "object file is empty: "++artifact.path))
          else inspected evidence (inspectCoffObject artifact.path (files artifact.path)) fun object =>
            if object.machine ≠ coffMachineFor request.architecture then
              .ok (evidence.refused .outputWrongTarget .incompatible (ascii "object machine 0x"++
                decimal object.machine.toNat++ascii " does not match the requested target"))
            else validateObjects files request rest
              { (evidence.checked (ascii "coff machine "++hex16 object.machine)).checked
                (ascii "coff sections "++decimal object.sectionCount.toNat) with
                  format := .coffObject }

/-- The image of a link phase: the first candidate of that format. -/
def linkedImage (request : OutputValidationRequest) :
    Option (Ref .intermediate × IntermediateArtifact) :=
  request.candidateOutputs.findSome? fun reference =>
    (request.artifacts.find reference.id).bind fun artifact =>
      if artifact.format=.coffImage then some (reference,artifact) else none

def validateImage (files : Bytes → FileView) (request : OutputValidationRequest) :
    Inspection ValidationEvidence :=
  match linkedImage request with
  | none => .ok (({} : ValidationEvidence).refused .outputMissing .stale
      (ascii "the link phase produced no image"))
  | some (_,image) =>
      let evidence := ({} : ValidationEvidence).checked
        (ascii "image exists: "++pathFilename image.path)
      inspected evidence (inspectPeImage image.path (files image.path)) fun parsed =>
        if parsed.machine ≠ coffMachineFor request.architecture then
          .ok (evidence.refused .outputWrongTarget .incompatible
            (ascii "image machine does not match the requested target"))
        else if !parsed.isExecutable then .ok (evidence.refused .outputUnexpectedFormat .incompatible
          (ascii "linked image is not an executable"))
        else .ok ({ ((evidence.checked (ascii "pe machine "++hex16 parsed.machine)).checked
            (ascii "pe subsystem "++decimal parsed.subsystem.toNat)).checked
            (ascii "pe sections "++decimal parsed.sectionCount.toNat) with
              format := .coffImage }.granted parsed.detail)

def validateCandidate (request : OutputValidationRequest) : ValidationEvidence :=
  let evidence := ({} : ValidationEvidence).checked (ascii "candidate executed")
  let expected := request.optionOr (ascii "msvc.expected_stdout") []
  match request.process with
  | none => { evidence with
      refusal := .integrityUnproven
      detail := ascii "no process evidence is available for the smoke test" }
  | some process =>
      if !process.exitedZero then evidence.refused .smokeTestFailed .corrupt
        (ascii "the produced executable did not exit with code 0")
      else
        let evidence := evidence.checked (ascii "candidate exit code 0")
        if !expected.isEmpty ∧
            !(process.capture.standardOutput.tails.any fun tail => expected.isPrefixOf tail) then
          evidence.refused .smokeTestFailed .corrupt
            (ascii "the produced executable did not print the expected marker")
        else
          let evidence := if !expected.isEmpty then
              evidence.checked (ascii "expected stdout marker observed") else evidence
          { evidence with format := .metadata }.granted
            (ascii "candidate execution smoke test passed")

/-- `MsvcAdapter::validate_outputs`, on the files as they are. -/
def validateOutputs (files : Bytes → FileView) (request : OutputValidationRequest) :
    Inspection ValidationEvidence :=
  match request.kind with
  | .inputValidate => .ok ((({} : ValidationEvidence).checked
      (ascii "compiler accepted the translation unit with /Zs")).granted
        (ascii "input validation succeeded"))
  | .codegen =>
      if request.candidateOutputs.isEmpty then .ok (({} : ValidationEvidence).refused .outputMissing
        .stale (ascii "the compile phase produced no object file"))
      else validateObjects files request request.candidateOutputs {}
  | .link => validateImage files request
  | .finalize => .ok (validateCandidate request)
  | _ => .ok (({} : ValidationEvidence).granted
      (ascii "no output validation is defined for this phase"))

end MsvcAdapter

namespace Runtime

/-- What `validate_phase_outputs` hands its adapter. -/
def validationRequest (rt : Runtime) (session : CompilerSession) (phase : PhaseRecord)
    (process : Option ProcessOutcome) : OutputValidationRequest where
  kind := phase.kind
  architecture := ((rt.targets.find session.target.id).map (·.spec.architecture)).getD .unknown
  adapterOptions := session.adapterOptions
  process := process
  artifacts := rt.artifacts
  candidateOutputs := phase.outputs

end Runtime

end CompilerFabric
