import CompilerFabric.Base.Spelling
import CompilerFabric.Core.Bounds

namespace CompilerFabric

open Base (Bytes Format)

namespace Digest

/-- The digits `A` to `F`, which `from_hex` accepts and `to_hex` never writes. -/
def UpperHex (c : UInt8) : Prop := 65 ≤ c ∧ c ≤ 70

instance (c : UInt8) : Decidable (UpperHex c) := inferInstanceAs (Decidable (_ ∧ _))

theorem hexDigit_hexValue {c : UInt8} {n : Nat} (h : hexValue c=some n) :
    n<16 ∧ (hexDigit n=c ↔ ¬UpperHex c) := by
  have hall : ∀ c : Fin 256,∀ n : Fin 16,hexValue (.ofNat c)=some n.val →
      (hexDigit n=.ofNat c ↔ ¬UpperHex (.ofNat c)) := by decide +kernel
  have hlt : n<16 := by
    unfold hexValue at h
    split_ifs at h with h₁ h₂ h₃ <;> cases h <;> simp only [UInt8.le_iff_toNat_le] at * <;>
      simp_all <;> omega
  have hc := hall ⟨c.toNat,c.toNat_lt⟩ ⟨n,hlt⟩
  simp only [UInt8.ofNat_toNat] at hc
  exact ⟨hlt,hc h⟩

theorem hexPairs_lower {s out : Bytes} (h : hexPairs s=some out) :
    out.flatMap (fun x => [hexDigit (x.toNat/16),hexDigit (x.toNat%16)])=s ↔ ∀ c ∈ s,¬UpperHex c := by
  fun_induction hexPairs s generalizing out with
  | case1 =>
    cases h
    simp
  | case2 => cases h
  | case3 hi lo rest ih =>
    simp only [Option.bind_eq_bind,Option.bind_eq_some_iff,Option.some.injEq] at h
    obtain ⟨m,hm,n,hn,tail,ht,rfl⟩ := h
    obtain ⟨hm16,hhi⟩ := hexDigit_hexValue hm
    obtain ⟨hn16,hlo⟩ := hexDigit_hexValue hn
    have hv : (UInt8.ofNat (m*16+n)).toNat=m*16+n := UInt8.toNat_ofNat_of_lt' (by
      show m*16+n<256
      omega)
    have hdiv : (m*16+n)/16=m := by omega
    have hmod : (m*16+n)%16=n := by omega
    simp only [List.flatMap_cons,hv,hdiv,hmod,List.cons_append,List.nil_append,List.cons.injEq,hhi,hlo,
      ih ht,List.forall_mem_cons]

theorem toHex_fromHex {s : Bytes} {d : Digest} (h : fromHex s=some d) :
    d.toHex=s ↔ ∀ c ∈ s,¬UpperHex c := by
  unfold fromHex at h
  split_ifs at h
  split at h
  · cases h
  · next raw hr =>
    cases h
    exact hexPairs_lower hr

theorem fromHex_length {s : Bytes} {d : Digest} (h : fromHex s=some d) : s.length=64 := by
  unfold fromHex at h
  split_ifs at h with hl
  exact hl

end Digest

namespace Codec

variable {tag : IdTag} (e : Status)

instance : (u8 e).Spelled := inferInstanceAs (Format.u8 e).Spelled
instance : (u32 e).Spelled := inferInstanceAs (Format.u32 e).Spelled
instance : (u64 e).Spelled := inferInstanceAs (Format.u64 e).Spelled
instance : (i32 e).Spelled := inferInstanceAs (Format.i32 e).Spelled
instance (bound : Nat) (h) : (str e bound h).Spelled := inferInstanceAs (Format.text bound h e).Spelled
instance : (path e).Spelled := inferInstanceAs (str e kMaxPathBytes).Spelled

/-- A boolean is spelled by a zero or a one; the reader takes every other byte for true. -/
instance : (b e).Spelled where
  plain s := s.head?=some 0 ∨ s.head?=some 1
  good_of_ok _ _ _ _ := trivial
  split s x r h := by
    obtain ⟨⟨raw,t⟩,hraw,h⟩ := Base.bind_eq_ok.1 h
    cases h
    have hs := Format.word_read (fun _ hn => UInt8.toNat_ofNat_of_lt' hn) hraw
    have hw : (Format.u8 e).write raw=[raw] := by simp [Format.u8,Format.word,Base.leBytes]
    refine ⟨[raw],by rw [← hw]; exact hs,by simp [b,Format.lenient,Format.u8,Format.word],?_⟩
    rw [hs]
    show Base.leBytes 1 (if decide (raw ≠ 0) then (1 : UInt8) else 0).toNat=[raw] ↔
      ((Format.u8 e).write raw++r).head?=some 0 ∨ ((Format.u8 e).write raw++r).head?=some 1
    rw [hw]
    by_cases h₀ : raw=0
    · simp [h₀,Base.leBytes]
    · simp [h₀,Base.leBytes,eq_comm]

/-- A digest is spelled in lower case; the reader takes upper case as well. -/
instance : (digest e).Spelled where
  plain s := ∀ t r,(str e 64).read s=.ok (t,r) → ∀ c ∈ t,¬Digest.UpperHex c
  good_of_ok _ _ _ _ := trivial
  split s d r h := by
    obtain ⟨⟨t,r'⟩,ht,h⟩ := Base.bind_eq_ok.1 h
    obtain ⟨d',hd,h⟩ := Base.bind_eq_ok.1 h
    cases h
    have hhex : Digest.fromHex t=some d := by
      cases hf : Digest.fromHex t with
      | none => simp [hf] at hd
      | some d' => simpa [hf] using hd
    have hl := Digest.fromHex_length hhex
    obtain ⟨hs,_⟩ := Format.text_read ht
    refine ⟨_,hs,by simp [digest,Format.lenient,str,Format.text,Format.u32,Format.word,hl],?_⟩
    have hwrite : (str e 64).write d.toHex=(str e 64).write t ↔ d.toHex=t := by
      refine ⟨fun h => ?_,fun h => by rw [h]⟩
      exact (List.append_inj h (by simp [Format.u32,Format.word])).2
    refine hwrite.trans ((Digest.toHex_fromHex hhex).trans ⟨fun hp u q hu => ?_,fun hp => hp _ _ ht⟩)
    have hut := ht.symm.trans hu
    cases hut
    exact hp

instance : (identity e : Format Status (StrongId tag)).Spelled :=
  inferInstanceAs (Format.view _ _ _ _ (Format.u64 e)).Spelled

instance : (generation e : Format Status (Generation tag)).Spelled :=
  inferInstanceAs (Format.view _ _ _ _ (Format.u64 e)).Spelled

instance : (reference e : Format Status (Ref tag)).Spelled :=
  inferInstanceAs (Format.view _ _ _ _ (Format.pair _ _)).Spelled

instance {α : Type} (F : Format Status α) [F.Spelled] (bound : Nat) (h) :
    (collection e F bound h).Spelled := inferInstanceAs (Format.list bound h e F).Spelled

instance (bound : Nat) : (count e bound).Spelled := inferInstanceAs (Format.check _ e _).Spelled
instance : (statusCode e).Spelled := inferInstanceAs (Format.view _ _ _ _ (Format.check _ e _)).Spelled
instance : (phaseKind e).Spelled := inferInstanceAs (Format.enumeration _ _ _ _ e).Spelled
instance : (phaseState e).Spelled := inferInstanceAs (Format.enumeration _ _ _ _ e).Spelled
instance : (failureClass e).Spelled := inferInstanceAs (Format.enumeration _ _ _ _ e).Spelled
instance : (objectFormat e).Spelled := inferInstanceAs (Format.enumeration _ _ _ _ e).Spelled
instance : (artifactState e).Spelled := inferInstanceAs (Format.enumeration _ _ _ _ e).Spelled
instance : (authorityState e).Spelled := inferInstanceAs (Format.enumeration _ _ _ _ e).Spelled
instance : (severity e).Spelled := inferInstanceAs (Format.enumeration _ _ _ _ e).Spelled
instance : (sessionState e).Spelled := inferInstanceAs (Format.enumeration _ _ _ _ e).Spelled
instance : (recoveryState e).Spelled := inferInstanceAs (Format.enumeration _ _ _ _ e).Spelled
instance (m : Status) : (schema e m).Spelled := Format.Spelled.expect _ m _ _
instance : (attempt e).Spelled := Format.Spelled.view _ _ _ _ _
instance : (transition e).Spelled := Format.Spelled.view _ _ _ _ _
instance : (diagnostic e).Spelled := Format.Spelled.view _ _ _ _ _

end Codec

instance : phaseFormat.Spelled := by delta phaseFormat; infer_instance
instance : artifactFormat.Spelled := by delta artifactFormat; infer_instance
instance : diagnosticSetFormat.Spelled := by delta diagnosticSetFormat; infer_instance
instance : candidateFormat.Spelled := by delta candidateFormat; infer_instance
instance (e : Status) : (nodeFormat e).Spelled := Format.Spelled.view _ _ _ _ _
instance : nodesFormat.Spelled := by delta nodesFormat; infer_instance

instance (e : Status) : (planFormat e).Spelled :=
  inferInstanceAs (Format.refine _ _ _ _ _ (Format.blob _ _ e _ nodesFormat)).Spelled

instance (e : Status) (nameBound valueBound : Nat) (hn) (hv) :
    (variableFormat e nameBound valueBound hn hv).Spelled :=
  Format.Spelled.view _ _ _ _ _

instance (e : Status) : (phaseBlob e).Spelled := inferInstanceAs (Format.blob _ _ e _ phaseFormat).Spelled

theorem orderedPhases_sorted (phases : Table PhaseRecord) :
    (orderedPhases phases).Pairwise (fun a b => a.id.value ≤ b.id.value) := by
  have : Std.Total fun a b : PhaseRecord => a.id.value ≤ b.id.value :=
    ⟨fun a b => UInt64.le_total a.id.value b.id.value⟩
  have : IsTrans PhaseRecord fun a b => a.id.value ≤ b.id.value := ⟨fun _ _ _ => UInt64.le_trans⟩
  exact List.pairwise_insertionSort _ _

/-- The writer's order of the phases: ascending, each identity once. -/
theorem orderedPhases_strict {phases : Table PhaseRecord} (h : KeyedById phases) :
    (orderedPhases phases).Pairwise (fun a b => a.id.value<b.id.value) := by
  have hne := List.pairwise_map.1 (orderedPhases_nodup h)
  refine ((orderedPhases_sorted phases).and hne).imp fun {a b} hab => ?_
  exact UInt64.lt_of_le_of_ne hab.1 hab.2

theorem orderedPhases_emplacePhases (ps : List PhaseRecord) :
    orderedPhases (emplacePhases ps)=ps ↔ ps.Pairwise (fun a b => a.id.value<b.id.value) := by
  have hstrict := orderedPhases_strict (keyedById_emplacePhases ps)
  constructor
  · intro h
    rwa [h] at hstrict
  · intro h
    have hnd : (ps.map (·.id.value)).Nodup := List.pairwise_map.2 (h.imp fun hab => UInt64.ne_of_lt hab)
    have hmem (p : PhaseRecord) : p ∈ orderedPhases (emplacePhases ps) ↔ p ∈ ps := by
      refine ⟨fun hp => List.mem_of_find?_eq_some (find?_of_mem_orderedPhases ps p hp),fun hp => ?_⟩
      exact mem_orderedPhases.2 ⟨p.id.value,(emplacePhases_getElem? ps _).trans (find?_of_nodup hnd hp)⟩
    have hperm : (orderedPhases (emplacePhases ps)).Perm ps :=
      (List.perm_ext_iff_of_nodup (List.Nodup.of_map _ (orderedPhases_nodup (keyedById_emplacePhases ps)))
        (List.Nodup.of_map _ hnd)).2 hmem
    refine hperm.eq_of_pairwise (fun a b _ _ hab hba => ?_) hstrict h
    exact absurd hab (UInt64.not_lt.2 (UInt64.le_of_lt hba))

/-- The phases of a session are reproduced when they stand in ascending order. -/
instance (e : Status) : (phasesFormat e).Spelled where
  plain s := Format.Spelled.plain (Codec.collection e (phaseBlob e) PlanData.kMaxPhases) s ∧
    ∀ ps r,(Codec.collection e (phaseBlob e) PlanData.kMaxPhases).read s=.ok (ps,r) →
      ps.Pairwise (fun a b => a.id.value<b.id.value)
  good_of_ok _ _ _ h := Format.keyed_good h
  split s x r h := by
    obtain ⟨ps,c,hps,hc,hl,hp⟩ := Format.keyed_split h
    refine ⟨c,hc,hl,hp.trans (and_congr_right fun _ => ?_)⟩
    rw [orderedPhases_emplacePhases]
    refine ⟨fun h qs q hq => ?_,fun h => h _ _ hps⟩
    have hqs := hps.symm.trans hq
    cases hqs
    exact h

instance : sessionFormat.Spelled := by delta sessionFormat; infer_instance
instance : snapshotFormat.Spelled := by delta snapshotFormat; infer_instance

section Registries

variable (e : Status)

instance : (fileIdentityFormat e).Spelled := Format.Spelled.view _ _ _ _ _
instance : (variablesFormat e).Spelled := inferInstanceAs (Codec.collection _ _ _ _).Spelled
instance : (environmentSpecFormat e).Spelled := Format.Spelled.view _ _ _ _ _
instance : (policySpecFormat e).Spelled := Format.Spelled.view _ _ _ _ _
instance : (targetSpecFormat e).Spelled := Format.Spelled.view _ _ _ _ _
instance : (architecturesFormat e).Spelled := inferInstanceAs (Codec.collection _ _ _ _).Spelled
instance : (componentFormat e).Spelled := Format.Spelled.view _ _ _ _ _

end Registries

instance : toolchainFormat.Spelled := by delta toolchainFormat; infer_instance

instance {tag : IdTag} {σ : Type} (what : String) (spec : Status → Format Status σ)
    [∀ e,(spec e).Spelled] : (identityFormat what spec : Format Status (SpecIdentity tag σ)).Spelled := by
  delta identityFormat
  infer_instance

instance : targetFormat.Spelled := inferInstanceAs (identityFormat _ targetSpecFormat).Spelled
instance : environmentFormat.Spelled := inferInstanceAs (identityFormat _ environmentSpecFormat).Spelled
instance : policyFormat.Spelled := inferInstanceAs (identityFormat _ policySpecFormat).Spelled
instance : sourceUnitFormat.Spelled := by delta sourceUnitFormat; infer_instance
instance : provenanceFormat.Spelled := by delta provenanceFormat; infer_instance

/-- What a decoder accepts is reproduced by its encoder exactly when it is spelled plainly: every
boolean by a zero or a one, every digest in lower case, the phases of a session in ascending
order of their identities. -/
theorem encode_decode_iff (s : Bytes) :
    (∀ x,decodePhase s=.ok x → (encodePhase x=s ↔ Format.Spelled.plain phaseFormat s)) ∧
    (∀ x,decodeArtifact s=.ok x → (encodeArtifact x=s ↔ Format.Spelled.plain artifactFormat s)) ∧
    (∀ x,decodeDiagnosticSet s=.ok x →
      (encodeDiagnosticSet x=s ↔ Format.Spelled.plain diagnosticSetFormat s)) ∧
    (∀ x,decodeCandidate s=.ok x →
      (encodeCandidate x=s ↔ Format.Spelled.plain candidateFormat s)) ∧
    (∀ x,decodePlan s=.ok x → (encodePlan x=s ↔ Format.Spelled.plain nodesFormat s)) ∧
    (∀ x,decodeSession s=.ok x → (encodeSession x=s ↔ Format.Spelled.plain sessionFormat s)) ∧
    (∀ x,decodeSnapshot s=.ok x → (encodeSnapshot x=s ↔ Format.Spelled.plain snapshotFormat s)) ∧
    (∀ x,decodeToolchain s=.ok x →
      (encodeToolchain x=s ↔ Format.Spelled.plain toolchainFormat s)) ∧
    (∀ x,decodeTargetIdentity s=.ok x →
      (encodeTargetIdentity x=s ↔ Format.Spelled.plain targetFormat s)) ∧
    (∀ x,decodeEnvironmentIdentity s=.ok x →
      (encodeEnvironmentIdentity x=s ↔ Format.Spelled.plain environmentFormat s)) ∧
    (∀ x,decodePolicyIdentity s=.ok x →
      (encodePolicyIdentity x=s ↔ Format.Spelled.plain policyFormat s)) ∧
    (∀ x,decodeSourceUnit s=.ok x →
      (encodeSourceUnit x=s ↔ Format.Spelled.plain sourceUnitFormat s)) ∧
    (∀ x,decodeProvenance s=.ok x →
      (encodeProvenance x=s ↔ Format.Spelled.plain provenanceFormat s)) := by
  refine ⟨?_,?_,?_,?_,fun x h => ?_,?_,?_,?_,?_,?_,?_,?_,?_⟩
  case refine_5 =>
    obtain ⟨nodes,hn,hb⟩ := Base.bind_eq_ok.1 h
    have hx : x.nodes=nodes := PlanData.build_nodes (PhasePlan.build_ok.1 hb)
    subst hx
    exact Format.Spelled.write_eq_iff hn
  all_goals exact fun x h => Format.Spelled.write_eq_iff h

namespace Sample

/-- A link that failed once and committed on its second attempt. -/
def retriedLink : PhaseRecord :=
  { id := ⟨3⟩
    generation := ⟨2⟩
    kind := .link
    adapterPhase := ascii "link"
    state := .committed
    dependsOn := [⟨1⟩,⟨2⟩]
    toolchain := ⟨⟨1⟩,⟨4⟩⟩
    activeInvocation := ⟨⟨6⟩,⟨1⟩⟩
    inputs := [⟨⟨1⟩,⟨1⟩⟩,⟨⟨2⟩,⟨1⟩⟩]
    outputs := [⟨⟨3⟩,⟨1⟩⟩]
    commit := ⟨5⟩
    attempts := [{ id := ⟨1⟩,terminalState := .failed,failure := .processCrash
                   status := .processCrashed,exitCode := -1,detail := ascii "crashed" },
      { id := ⟨2⟩,terminalState := .committed }]
    history := [{ src := .running,dst := .failed,atNanos := 7,reason := ascii "crashed" },
      { src := .commitReady,dst := .committed,atNanos := 9 }]
    lastDetail := ascii "committed" }

end Sample

/-- The encoding of a phase with attempts, inputs and a history is plain, and the phase reads back
from it. -/
theorem encode_decode_plain :
    decodePhase (encodePhase Sample.retriedLink)=.ok Sample.retriedLink ∧
      Format.Spelled.plain phaseFormat (encodePhase Sample.retriedLink) := by
  have h : decodePhase (encodePhase Sample.retriedLink)=.ok Sample.retriedLink := by
    refine (Format.readAll_write _ _ _).2 ((phaseFormat_good _).2 ?_)
    constructor <;> simp +decide [Sample.retriedLink,PhaseAttempt.bounded_iff]
  exact ⟨h,((encode_decode_iff _).1 _ h).1 rfl⟩

namespace Sample

/-- The encoding of a phase with a two where its `mandatory` flag is spelled. -/
def tolerated : Bytes := (encodePhase {}).set 24 2

end Sample

theorem not_encode_decode :
    decodePhase Sample.tolerated=.ok {} ∧ encodePhase {} ≠ Sample.tolerated := by
  have h : ((match decodePhase Sample.tolerated with
    | .ok x => decide (x={})
    | .error _ => false) && encodePhase {} != Sample.tolerated)=true := by decide +kernel
  rw [Bool.and_eq_true,bne_iff_ne] at h
  refine ⟨?_,h.2⟩
  have hd := h.1
  split at hd
  · next x hx => rw [hx,of_decide_eq_true hd]
  · cases hd

end CompilerFabric
