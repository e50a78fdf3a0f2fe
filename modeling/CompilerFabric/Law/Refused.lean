import CompilerFabric.Base.Faithful
import CompilerFabric.Law.Payloads

namespace CompilerFabric

open Base Base.Format

namespace Codec

variable (e : Status)

instance : (u8 e).Faithful := inferInstanceAs (Format.u8 e).Faithful
instance : (u32 e).Faithful := inferInstanceAs (Format.u32 e).Faithful
instance : (u64 e).Faithful := inferInstanceAs (Format.u64 e).Faithful
instance : (b e).Faithful := Faithful.lenient ..
instance (bound : Nat) (h) : (str e bound h).Faithful := Faithful.text ..
instance : (path e).Faithful := inferInstanceAs (str e kMaxPathBytes).Faithful
instance : (digest e).Faithful := Faithful.lenient ..
instance {tag : IdTag} : (identity e : Format Status (StrongId tag)).Faithful := Faithful.view ..
instance {tag : IdTag} : (generation e : Format Status (Generation tag)).Faithful := Faithful.view ..
instance {tag : IdTag} : (reference e : Format Status (Ref tag)).Faithful := Faithful.view ..

instance {α : Type} (F : Format Status α) [F.Faithful] (bound : Nat) (h) :
    (collection e F bound h).Faithful := Faithful.list bound h

end Codec

instance (e : Status) (nameBound valueBound : Nat) (hn) (hv) :
    (variableFormat e nameBound valueBound hn hv).Faithful := Faithful.view ..

instance (e : Status) : (environmentSpecFormat e).Faithful :=
  have : (variablesFormat e).Faithful := inferInstanceAs (Codec.collection e _ 4096).Faithful
  Faithful.view ..

instance (e : Status) : (targetSpecFormat e).Faithful := Faithful.view ..

namespace Payload

variable (e : Status)

instance {α : Type} (excess : String) (F : Format Status α) [F.Faithful] (bound : Nat) (h) :
    (crowd excess e F bound h).Faithful := Faithful.counted bound h _

instance : (objectFormat e).Faithful := Faithful.cast ..
instance : (severity e).Faithful := Faithful.cast ..
instance : (termination e).Faithful := Faithful.cast ..
instance : (style e).Faithful := Faithful.cast ..
instance : (statusCode e).Faithful := Faithful.view ..
instance : (policy e).Faithful := Faithful.view ..
instance : (inlineSource e).Faithful := inferInstanceAs (Format.pair _ _).Faithful
instance : (capture e).Faithful := Faithful.view ..
instance : (output e).Faithful := Faithful.view ..
instance : (diagnostic e).Faithful := Faithful.view ..
instance : (binding e).Faithful := Faithful.view ..
instance : compileRequest.Faithful := by
  delta compileRequest
  infer_instance

end Payload

/-- The bytes of a field are within the reach of every length prefix. -/
theorem field_lt {n : Nat} (h : n ≤ kMaxFieldBytes) : n<2^32 :=
  Nat.lt_of_le_of_lt h (by decide)

theorem decodeExecutionReport_ok {r r' : ExecutionReport}
    (h : decodeExecutionReport (encodeExecutionReport r)=.ok r') : r'=r.transported := by
  obtain ⟨hl,h⟩ := fieldBlob_bind.1 h
  dsimp only [Payload.executionReport] at hl h
  have hread := eq_of_readAll_projected rfl (field_lt hl) h
  exact hread

theorem decodeCompileRequest_ok {c c' : CompileRequest}
    (h : decodeCompileRequest (encodeCompileRequest c)=.ok c') : c'=c := by
  obtain ⟨hl,h⟩ := fieldBlob_bind.1 h
  exact eq_of_readAll (field_lt hl) h

theorem decodeInvocationOrder_ok {o o' : InvocationOrder}
    (h : decodeInvocationOrder (encodeInvocationOrder o)=.ok o') : o'=o.transported := by
  obtain ⟨hl,h⟩ := fieldBlob_bind.1 h
  dsimp only [Payload.invocationOrder] at hl h
  have hread := eq_of_readAll_projected rfl (field_lt hl) h
  exact hread

/-- No payload is misread: reports, requests and orders come back from their payloads with all that is
transported where they are transportable, and are refused where they are not. -/
theorem payloads_refused (r : ExecutionReport) (c : CompileRequest) (o : InvocationOrder) :
    (∀ r',decodeExecutionReport (encodeExecutionReport r)=.ok r' ↔
      r.Transportable ∧ r'=r.transported) ∧
    (∀ c',decodeCompileRequest (encodeCompileRequest c)=.ok c' ↔ c.Transportable ∧ c'=c) ∧
    (∀ o',decodeInvocationOrder (encodeInvocationOrder o)=.ok o' ↔
      o.Transportable ∧ o'=o.transported) := by
  refine ⟨fun r' => ⟨fun h => ?_,?_⟩,fun c' => ⟨fun h => ?_,?_⟩,fun o' => ⟨fun h => ?_,?_⟩⟩
  · obtain rfl := decodeExecutionReport_ok h
    exact ⟨(executionReport_recovered r).1 h,rfl⟩
  · rintro ⟨ht,rfl⟩
    exact (executionReport_recovered r).2 ht
  · obtain rfl := decodeCompileRequest_ok h
    exact ⟨(compileRequest_recovered c').1 h,rfl⟩
  · rintro ⟨ht,rfl⟩
    exact (compileRequest_recovered c').2 ht
  · obtain rfl := decodeInvocationOrder_ok h
    exact ⟨(invocationOrder_recovered o).1 h,rfl⟩
  · rintro ⟨ht,rfl⟩
    exact (invocationOrder_recovered o).2 ht

end CompilerFabric
