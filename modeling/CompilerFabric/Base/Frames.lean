import CompilerFabric.Base.Format

namespace CompilerFabric.Base

section Frames

variable {α : Type} {frame : α → Bytes} {k : Nat} {rs ps : List α}

/-- The records that a log of frames cut after `k` bytes still holds in full. -/
def whole (frame : α → Bytes) : Nat → List α → List α
  | _,[] => []
  | k,r::rs => if (frame r).length ≤ k then r::whole frame (k-(frame r).length) rs else []

theorem whole_isPrefix : whole frame k rs<+:rs := by
  induction rs generalizing k with
  | nil => exact List.prefix_refl _
  | cons r rs ih =>
    rw [whole]
    split_ifs
    · exact (List.prefix_cons_inj r).2 ih
    · exact List.nil_prefix

/-- A log cut anywhere is its whole records and a proper start of the next one. -/
theorem take_flatMap_eq (frame : α → Bytes) (k : Nat) (rs : List α) :
    ∃ cut,(rs.flatMap frame).take k=(whole frame k rs).flatMap frame++cut ∧
      (cut=[] ∨ ∃ r ∈ rs,∃ n,0<n ∧ n<(frame r).length ∧ cut=(frame r).take n) := by
  induction rs generalizing k with
  | nil => exact ⟨[],by simp [whole],.inl rfl⟩
  | cons r rs ih =>
    rw [List.flatMap_cons,List.take_append,whole]
    split_ifs with h
    · obtain ⟨cut,hcut,hc⟩ := ih (k := k-(frame r).length)
      refine ⟨cut,?_,?_⟩
      · rw [List.take_of_length_le h,hcut,List.flatMap_cons,List.append_assoc]
      · exact hc.imp_right fun ⟨q,hq,hn⟩ => ⟨q,List.mem_cons_of_mem r hq,hn⟩
    · have hk : k-(frame r).length=0 := by omega
      refine ⟨(frame r).take k,by simp [hk],?_⟩
      by_cases h0 : k=0
      · exact .inl (by simp [h0])
      · exact .inr ⟨r,List.mem_cons_self,k,by omega,by omega,rfl⟩

end Frames

end CompilerFabric.Base
