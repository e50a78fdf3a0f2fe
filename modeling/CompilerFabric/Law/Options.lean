import CompilerFabric.Core.Folding
import CompilerFabric.Runtime.Invocation

namespace CompilerFabric

open Base

/-! The two rules for forbidden options, and what else is refused by policy. -/

/-- A result that is not a refusal with this code. -/
def Avoids (code : StatusCode) {α : Type} (x : Result α) : Prop := ∀ message,x ≠ .error ⟨code,message⟩

namespace Avoids

variable {code : StatusCode} {α β : Type} {x : Result α}

theorem ok (a : α) : Avoids code (.ok a) := fun _ h => nomatch h

theorem error {other : StatusCode} {text : Bytes} (h : other ≠ code) :
    Avoids code (.error ⟨other,text⟩ : Result α) :=
  fun _ he => h (congrArg Status.code (Except.error.inj he))

theorem ensure {p : Prop} [Decidable p] {other : StatusCode} {text : Bytes} (h : other ≠ code) :
    Avoids code (CompilerFabric.ensure p ⟨other,text⟩) := by
  unfold CompilerFabric.ensure
  split_ifs
  · exact ok ()
  · exact error h

theorem bind {f : α → Result β} (hx : Avoids code x) (hf : ∀ a,Avoids code (f a)) :
    Avoids code (x >>= f) := by
  cases x with
  | ok a => exact hf a
  | error status =>
    intro message he
    exact hx message (congrArg _ (Except.error.inj he))

theorem forM {l : List α} {f : α → Result Unit} (h : ∀ a ∈ l,Avoids code (f a)) :
    Avoids code (l.forM f) := by
  induction l with
  | nil => exact ok ()
  | cons a l ih =>
    have hcons : (a::l).forM f=(f a >>= fun _ => l.forM f) := rfl
    rw [hcons]
    exact bind (h a List.mem_cons_self) fun _ => ih fun b hb => h b (List.mem_cons_of_mem _ hb)

end Avoids

theorem ProcessSpec.validate_avoids (host : Host) (spec : ProcessSpec) :
    Avoids .policyRefused (spec.validate host) := by
  unfold ProcessSpec.validate
  iterate 5 refine .bind (.ensure (by decide)) fun _ => ?_
  refine .bind (.forM fun a _ => ?_) fun _ => ?_
  · exact .bind (.ensure (by decide)) fun _ => .ensure (by decide)
  · iterate 5 refine .bind (.ensure (by decide)) fun _ => ?_
    exact .ensure (by decide)

theorem Workspace.resolve_avoids (host : Host) (workspace : Workspace) (relative : Bytes) :
    Avoids .policyRefused (workspace.resolve host relative) := by
  unfold Workspace.resolve
  iterate 7 refine .bind (.ensure (by decide)) fun _ => ?_
  split
  · exact .error (by decide)
  · exact .ok _

namespace InvocationValidationContext

variable (context : InvocationValidationContext) (host : Host)

/-- The checks of `validate_invocation` in front of the forbidden options. -/
def beforeOptions (spec : InvocationSpec) : Result Unit := do
  ensure (¬spec.executable.isEmpty) (.of .invalidArgument "invocation has no executable")
  ensure (isAbsolutePath spec.executable)
    ⟨.pathNotAbsolute,ascii "invocation executable must be absolute: "++spec.executable⟩
  context.checkArguments spec
  context.checkEnvironment spec
  ensure (spec.inputs.length ≤ context.limits.maxInputs)
    (.of .capacityExceeded "invocation input count exceeds the ceiling")
  ensure (spec.expectedOutputs.length ≤ context.limits.maxOutputs)
    (.of .capacityExceeded "invocation output count exceeds the ceiling")
  context.checkExecutable host spec

/-- The checks behind them. -/
def afterOptions (spec : InvocationSpec) : Result InvocationSpec := do
  ensure (context.targetArchitecture ≠ .unknown)
    (.of .targetUnsupported "invocation has no resolved target architecture")
  spec.inputs.forM context.checkInput
  spec.expectedOutputs.forM (context.checkOutput host)
  context.checkWorkingDirectory (context.settle spec)
  let _ ← (context.settle spec).toProcessSpec host
  return context.settle spec

variable {context host}

theorem validateInvocation_eq (spec : InvocationSpec) : validateInvocation host context spec=(do
    context.beforeOptions host spec
    context.checkOptions spec
    context.afterOptions host spec) := by
  simp only [validateInvocation,beforeOptions,afterOptions,bind_assoc]

theorem checkOutput_avoids (binding : OutputBinding) :
    Avoids .policyRefused (context.checkOutput host binding) := by
  unfold checkOutput
  iterate 4 refine .bind (.ensure (by decide)) fun _ => ?_
  cases context.workspace with
  | none => exact .ok ()
  | some workspace =>
    refine .bind (.ensure (by decide)) fun _ => .bind (.ensure (by decide)) fun _ => ?_
    exact .bind (workspace.resolve_avoids host _) fun _ => .ok ()

/-- Behind the forbidden options nothing is refused by policy any more. -/
theorem afterOptions_avoids (spec : InvocationSpec) :
    Avoids .policyRefused (context.afterOptions host spec) := by
  unfold afterOptions
  refine .bind (.ensure (by decide)) fun _ => .bind (.forM fun binding _ => ?_) fun _ =>
    .bind (.forM fun binding _ => checkOutput_avoids binding) fun _ => .bind ?_ fun _ => .bind ?_ fun _ => .ok _
  · unfold checkInput
    iterate 2 refine .bind (.ensure (by decide)) fun _ => ?_
    exact .ensure (by decide)
  · exact .bind (.ensure (by decide)) fun _ => .ensure (by decide)
  · exact .bind (ProcessSpec.validate_avoids host _) fun _ => .ok _

/-- Past the earlier checks it is the options alone that policy refuses. -/
theorem policyRefused_iff {spec : InvocationSpec} (h : context.beforeOptions host spec=.ok ()) :
    (∃ message,validateInvocation host context spec=.error ⟨.policyRefused,message⟩) ↔
      ∃ a ∈ spec.arguments,forbids context.forbiddenOptions a := by
  rw [validateInvocation_eq,h]
  have hskip : (do Except.ok (); context.checkOptions spec; context.afterOptions host spec)=(do
    context.checkOptions spec; context.afterOptions host spec) := rfl
  rw [hskip,checkOptions]
  cases hfind : spec.arguments.find? (forbids context.forbiddenOptions) with
  | some argument =>
    have hmem := List.mem_of_find?_eq_some hfind
    exact ⟨fun _ => ⟨argument,hmem,List.find?_some hfind⟩,fun _ => ⟨_,rfl⟩⟩
  | none =>
    constructor
    · rintro ⟨message,he⟩
      exact absurd he (afterOptions_avoids spec message)
    · rintro ⟨a,ha,hf⟩
      exact absurd hf (List.find?_eq_none.1 hfind a ha)

end InvocationValidationContext

theorem switch_of_asciiLower {c d : UInt8} (h : asciiLower c=asciiLower d) :
    c ∈ [47,45] ↔ d ∈ [47,45] := by
  rw [← asciiLower_switch c,← asciiLower_switch d,h]

/-- An argument that matches an option looks like a switch when the option does. -/
theorem argumentLooksLikeSwitch_of_matches {a o : Bytes}
    (h : (equalsAsciiCi a o || (decide (o.length<a.length) && startsWithCi a o &&
      (a[o.length]?).any (· ∈ [58,61])))=true) :
    argumentLooksLikeSwitch a=argumentLooksLikeSwitch o := by
  simp only [Bool.or_eq_true,Bool.and_eq_true,decide_eq_true_eq,startsWithCi,equalsAsciiCi,
    toLowerAscii,beq_iff_eq] at h
  cases o with
  | nil =>
    rcases h with h | ⟨_,h⟩
    · simp_all
    · cases a with
      | nil => rfl
      | cons c a =>
        simp only [List.length_nil,List.getElem?_cons_zero,Option.any_some,decide_eq_true_eq] at h
        have hc : c ∉ [47,45] := by
          rcases List.mem_pair.1 h with rfl | rfl <;> decide
        simpa [argumentLooksLikeSwitch] using hc
  | cons d o =>
    cases a with
    | nil => simp at h
    | cons c a =>
      have hcd : asciiLower c=asciiLower d := by
        rcases h with h | ⟨⟨_,_,h⟩,_⟩ <;> simp_all
      exact decide_eq_decide.2 (switch_of_asciiLower hcd)

/-- The policy with those of its forbidden options that look like a switch. -/
def PolicySpec.switches (policy : PolicySpec) : PolicySpec :=
  { policy with forbiddenOptions := policy.forbiddenOptions.filter argumentLooksLikeSwitch }

/-- What `validate_invocation` looks for are the options that look like a switch. -/
theorem PolicySpec.forbids_eq (policy : PolicySpec) (argument : Bytes) :
    forbids policy.forbiddenOptions argument=policy.switches.forbidsOption argument := by
  rw [Bool.eq_iff_iff]
  simp only [forbids,forbidsOption,switches,Bool.and_eq_true,List.any_eq_true,List.mem_filter]
  constructor
  · rintro ⟨hs,o,ho,hm⟩
    exact ⟨o,⟨ho,argumentLooksLikeSwitch_of_matches hm ▸ hs⟩,hm⟩
  · rintro ⟨o,⟨ho,hs⟩,hm⟩
    exact ⟨argumentLooksLikeSwitch_of_matches hm ▸ hs,o,ho,hm⟩

theorem PolicySpec.forbidsOption_of_switches {policy : PolicySpec} {argument : Bytes}
    (h : policy.switches.forbidsOption argument) : policy.forbidsOption argument := by
  rw [← forbids_eq,forbids,Bool.and_eq_true] at h
  exact h.2

namespace InvocationValidationContext

/-- The context of a session under a policy. -/
def governed (context : InvocationValidationContext) (policy : PolicySpec) :
    InvocationValidationContext := { context with forbiddenOptions := policy.forbiddenOptions }

/-- Past the earlier checks, policy refuses just the invocations with an argument it forbids,
exactly when such an argument never goes without one that a switch of the policy forbids. -/
theorem refuses_forbidden_iff (host : Host) (policy : PolicySpec)
    (context : InvocationValidationContext) (spec : InvocationSpec)
    (h : (context.governed policy).beforeOptions host spec=.ok ()) :
    ((∃ message,validateInvocation host (context.governed policy) spec=
        .error ⟨.policyRefused,message⟩) ↔ ∃ a ∈ spec.arguments,policy.forbidsOption a) ↔
      ((∃ a ∈ spec.arguments,policy.forbidsOption a) →
        ∃ a ∈ spec.arguments,policy.switches.forbidsOption a) := by
  have hrule : (∃ a ∈ spec.arguments,forbids (context.governed policy).forbiddenOptions a) ↔
      ∃ a ∈ spec.arguments,policy.switches.forbidsOption a := by
    have heq : (context.governed policy).forbiddenOptions=policy.forbiddenOptions := rfl
    simp only [heq,policy.forbids_eq]
  rw [policyRefused_iff h,hrule]
  constructor
  · exact fun heq => heq.2
  · intro himp
    exact ⟨fun ⟨a,ha,hs⟩ => ⟨a,ha,PolicySpec.forbidsOption_of_switches hs⟩,himp⟩

end InvocationValidationContext

namespace Sample

/-- A machine with the compiler on it and nothing else. -/
def compilerHost : Host :=
  { files := fun path => if path=canonicalPathKey (ascii "C:\\cl.exe") then some (.file []) else none }

/-- A policy against a switch and against a response file. -/
def strict : PolicySpec := { forbiddenOptions := [ascii "/fallback",ascii "@flags.rsp"] }

def x64 : InvocationValidationContext := { targetArchitecture := ⟨2⟩,requireComponentIdentity := false }

def compile (argument : String) : InvocationSpec :=
  { executable := ascii "C:\\cl.exe",arguments := [ascii argument] }

end Sample

theorem InvocationValidationContext.refuses_forbidden_fallback :
    let context := Sample.x64.governed Sample.strict
    let spec := Sample.compile "/fallback:on"
    context.beforeOptions Sample.compilerHost spec=.ok () ∧
      (((∃ message,validateInvocation Sample.compilerHost context spec=.error ⟨.policyRefused,message⟩) ↔
          ∃ a ∈ spec.arguments,Sample.strict.forbidsOption a) ↔
        ((∃ a ∈ spec.arguments,Sample.strict.forbidsOption a) →
          ∃ a ∈ spec.arguments,Sample.strict.switches.forbidsOption a)) :=
  have h : (Sample.x64.governed Sample.strict).beforeOptions Sample.compilerHost
      (Sample.compile "/fallback:on")=.ok () := by decide +kernel
  ⟨h,InvocationValidationContext.refuses_forbidden_iff Sample.compilerHost Sample.strict Sample.x64 _ h⟩

/-- An invocation with a response file that the policy forbids goes through. -/
theorem InvocationValidationContext.not_refuses_response :
    let context := Sample.x64.governed Sample.strict
    let spec := Sample.compile "@flags.rsp"
    context.beforeOptions Sample.compilerHost spec=.ok () ∧
      ¬((∃ message,validateInvocation Sample.compilerHost context spec=.error ⟨.policyRefused,message⟩) ↔
        ∃ a ∈ spec.arguments,Sample.strict.forbidsOption a) := by
  have hok : validateInvocation Sample.compilerHost (Sample.x64.governed Sample.strict)
      (Sample.compile "@flags.rsp")=.ok (Sample.compile "@flags.rsp") := by decide +kernel
  have hforbidden : Sample.strict.forbidsOption (ascii "@flags.rsp")=true := by decide +kernel
  refine ⟨by decide +kernel,fun hiff => ?_⟩
  obtain ⟨message,he⟩ := hiff.2 ⟨_,List.mem_singleton_self _,hforbidden⟩
  rw [hok] at he
  exact nomatch he

end CompilerFabric
