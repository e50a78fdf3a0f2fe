import CompilerFabric.Runtime.Restart
import CompilerFabric.Runtime.Steps

namespace CompilerFabric

open Base Base.Action

namespace CompilerSession

/-- The identities of a kind that a session holds. -/
def held (s : CompilerSession) (tag : IdTag) : List UInt64 :=
  let phases : List PhaseRecord := s.phases.toList.map (·.2)
  let found : List UInt64 := match tag with
    | .phase => phases.map (·.id.value)
    | .invocation => phases.flatMap fun p =>
        p.activeInvocation.id.value::p.attempts.map (·.invocation.id.value)
    | .attempt => s.attempt.value::phases.flatMap fun p => p.attempts.map (·.id.value)
    | .lease => phases.map (·.lease.id.value)
    | .commit => phases.map (·.commit.value)
    | .artifact => [s.candidate.id.value]
    | _ => []
  found.filter (· ≠ 0)

/-- The kinds whose allocators a replay leaves where they start. -/
def kForgottenKinds : List IdTag := [.phase,.invocation,.attempt,.lease,.commit,.artifact]

theorem held_ne_zero {s : CompilerSession} {tag : IdTag} {id : UInt64} (h : id ∈ s.held tag) :
    id.toNat ≠ 0 := by
  have hn : id ≠ 0 := by simpa using (List.mem_filter.1 h).2
  intro h0
  exact hn (UInt64.toNat_inj.1 h0)

theorem held_kind {s : CompilerSession} {tag : IdTag} {id : UInt64} (h : id ∈ s.held tag) :
    tag ∈ kForgottenKinds := by
  cases tag <;> first | decide | simp [held] at h

end CompilerSession

theorem NumbersOff.mem_drawn {issued : List (IdTag × UInt64)} {tag : IdTag} {counter id : UInt64}
    (h : NumbersOff issued tag counter) :
    id ∈ drawn issued tag ↔ id.toNat ≠ 0 ∧ id.toNat ≤ (drawn issued tag).length := by
  rw [h.draws,List.length_map,List.length_range]
  generalize (drawn issued tag).length=n
  constructor
  · intro hm
    have ⟨k,hk,he⟩ := List.mem_map.1 hm
    have hk := List.mem_range.1 hk
    have ht := congrArg UInt64.toNat he
    rw [nthId_toNat] at ht
    omega
  · intro ⟨h0,hle⟩
    refine List.mem_map.2 ⟨id.toNat-1,List.mem_range.2 (by omega),?_⟩
    apply UInt64.toNat_inj.1
    have hlt := id.toNat_lt
    rw [nthId_toNat]
    omega

theorem mem_drawn_iff {issued : List (IdTag × UInt64)} {tag : IdTag} {id : UInt64} :
    id ∈ drawn issued tag ↔ (tag,id) ∈ issued := by
  constructor
  · intro h
    have ⟨⟨tag',id'⟩,hm,he⟩ := List.mem_map.1 h
    have ⟨hissued,ht⟩ := List.mem_filter.1 hm
    have ht : tag'=tag := by simpa using ht
    have he : id'=id := he
    rw [← ht,← he]
    exact hissued
  · intro h
    exact List.mem_map.2 ⟨(tag,id),List.mem_filter.2 ⟨h,by simp⟩,rfl⟩

namespace Runtime

theorem Minted.numbersOff {rt : Runtime} (h : rt.Minted) {tag : IdTag}
    (ht : tag ∈ CompilerSession.kForgottenKinds) : ∃ counter,NumbersOff rt.issued tag counter := by
  simp only [CompilerSession.kForgottenKinds,List.mem_cons,List.not_mem_nil,or_false] at ht
  rcases ht with rfl | rfl | rfl | rfl | rfl | rfl
  · exact ⟨_,h.phase⟩
  · exact ⟨_,h.invocation⟩
  · exact ⟨_,h.attempt⟩
  · exact ⟨_,h.lease⟩
  · exact ⟨_,h.commit⟩
  · exact ⟨_,h.final⟩

/-- No identity `rt` has drawn is held, as one of its kind, by a session that was there at the
start. -/
def Fresh (start rt : Runtime) : Prop :=
  ∀ tag id,(tag,id) ∈ rt.issued → ∀ (i : UInt64) s,start.sessions[i]?=some s → id ∉ s.held tag

theorem fresh_iff_of_minted {start rt : Runtime} (h : rt.Minted) :
    Fresh start rt ↔ ∀ (i : UInt64) s,start.sessions[i]?=some s → ∀ tag,∀ id ∈ s.held tag,
      (drawn rt.issued tag).length < id.toNat := by
  constructor
  · intro hf i s hs tag id hid
    have ⟨_,hn⟩ := h.numbersOff (CompilerSession.held_kind hid)
    by_contra hle
    have hm := hn.mem_drawn.2 ⟨CompilerSession.held_ne_zero hid,Nat.le_of_not_lt hle⟩
    exact hf tag id (mem_drawn_iff.1 hm) i s hs hid
  · intro hb tag id hm i s hs hid
    have ⟨_,hn⟩ := h.numbersOff (CompilerSession.held_kind hid)
    have hle := (hn.mem_drawn.1 (mem_drawn_iff.2 hm)).2
    exact absurd (hb i s hs tag id hid) (Nat.not_lt.2 hle)

end Runtime

namespace System

theorem run_minted {sys : System} {events : List Event} (h : sys.rt.Minted)
    (he : ∀ e ∈ events,e.inProcess) : (sys.run events).rt.Minted := by
  induction events generalizing sys with
  | nil => exact h
  | cons e events ih =>
    have hm := (sys.apply_keeps (he e List.mem_cons_self)).mints h
    exact ih hm fun e' he' => he e' (List.mem_cons_of_mem _ he')

/-- After a start on any journal, the identities a process draws are new to the sessions it
recovered exactly as long as it has drawn fewer of each kind than the least one they hold. -/
theorem fresh_iff_few_drawn (options : RuntimeOptions) (adapters : List Adapter) (file : Bytes)
    (w : World) {events : List Event} (he : ∀ e ∈ events,e.inProcess) :
    (boot options adapters file w).rt.Fresh ((boot options adapters file w).run events).rt ↔
      ∀ (i : UInt64) s,(boot options adapters file w).rt.sessions[i]?=some s →
        ∀ tag,∀ id ∈ s.held tag,
          (drawn ((boot options adapters file w).run events).rt.issued tag).length < id.toNat := by
  apply Runtime.fresh_iff_of_minted
  refine run_minted ?_ he
  exact (Runtime.create_spec w options adapters file).2

end System

namespace Sample

/-- A session created as a seventh attempt. -/
def attempted : System := (System.boot durable [adapter] [] world).run
  [.call (.discoverToolchain family) world,
    .call (.createSession { request with attempt := ⟨7⟩ }) world]

/-- The process started on its journal. -/
def recalled : System := System.boot durable [adapter] attempted.journal world

/-- The session is recovered and its phase is run to its commit. -/
def resumed : List Event :=
  .call (.applyRecovery ⟨1⟩) world::.resume 0 world::.call (.runPhase ⟨1⟩ ⟨1⟩) world::
    List.replicate 9 (.resume 1 world)

end Sample

namespace System

/-- What the process draws, that it draws fewer of each kind than the session holds, and what it
draws that creates another session instead. -/
theorem recalled_draws : CompilerSession.kForgottenKinds.map (fun tag =>
      (drawn (Sample.recalled.run Sample.resumed).rt.issued tag).length)=[0,1,1,1,1,1] ∧
    Sample.recalled.rt.sessions.toList.map (fun e => CompilerSession.kForgottenKinds.map e.2.held)=
      [[[1],[],[7],[],[],[]]] ∧
    drawn (Sample.recalled.run [.call (.createSession Sample.request) Sample.world]).rt.issued
      .phase=[1] := by decide +kernel

theorem few_of_counts {issued : List (IdTag × UInt64)} {s : CompilerSession} {tag : IdTag}
    {id : UInt64}
    (hd : CompilerSession.kForgottenKinds.map (fun tag => (drawn issued tag).length)=[0,1,1,1,1,1])
    (hh : CompilerSession.kForgottenKinds.map s.held=[[1],[],[7],[],[],[]])
    (hid : id ∈ s.held tag) : (drawn issued tag).length < id.toNat := by
  simp only [CompilerSession.kForgottenKinds,List.map_cons,List.map_nil,List.cons.injEq] at hd hh
  have htag := CompilerSession.held_kind hid
  simp only [CompilerSession.kForgottenKinds,List.mem_cons,List.not_mem_nil,or_false] at htag
  rcases htag with rfl | rfl | rfl | rfl | rfl | rfl <;>
    simp only [hh,List.mem_singleton,List.not_mem_nil] at hid
  · rw [hd.1,hid]
    decide
  · rw [hd.2.2.1,hid]
    decide

/-- A restarted process that runs the recovered phase draws an invocation, an attempt, a lease, a
commit and a final artifact, none of which the session holds. -/
theorem fresh_of_restarted : CompilerSession.kForgottenKinds.map (fun tag =>
      (drawn (Sample.recalled.run Sample.resumed).rt.issued tag).length)=[0,1,1,1,1,1] ∧
    Sample.recalled.rt.Fresh (Sample.recalled.run Sample.resumed).rt := by
  have he : ∀ e ∈ Sample.resumed,e.inProcess := by
    intro e he
    simp only [Sample.resumed,List.mem_cons,List.mem_replicate] at he
    rcases he with rfl | rfl | rfl | ⟨_,rfl⟩ <;> trivial
  have hiff := fresh_iff_few_drawn Sample.durable [Sample.adapter] Sample.attempted.journal
    Sample.world he
  rw [← Sample.recalled] at hiff
  obtain ⟨hdrawn,hheld,_⟩ := recalled_draws
  obtain ⟨e,htoList,hheld⟩ := List.map_eq_singleton_iff.1 hheld
  refine ⟨hdrawn,hiff.2 ?_⟩
  intro i s hs tag id hid
  have hmem := Std.ExtTreeMap.mem_toList_iff_getElem?_eq_some.2 hs
  rw [htoList,List.mem_singleton] at hmem
  subst hmem
  exact few_of_counts hdrawn hheld hid

/-- A session that a restart recovers, and a second one created after it: both draw their phase
from an allocator that starts at one. -/
theorem not_fresh_after_restart :
    ¬Sample.recalled.rt.Fresh
      (Sample.recalled.run [.call (.createSession Sample.request) Sample.world]).rt := by
  obtain ⟨_,hheld,hdrawn⟩ := recalled_draws
  obtain ⟨e,htoList,hheld⟩ := List.map_eq_singleton_iff.1 hheld
  simp only [CompilerSession.kForgottenKinds,List.map_cons,List.cons.injEq] at hheld
  have hs : Sample.recalled.rt.sessions[e.1]?=some e.2 := by
    refine Std.ExtTreeMap.mem_toList_iff_getElem?_eq_some.1 ?_
    rw [htoList]
    exact List.mem_singleton.2 rfl
  intro hf
  refine hf .phase 1 ?_ e.1 e.2 hs ?_
  · rw [← mem_drawn_iff,hdrawn]
    exact List.mem_singleton.2 rfl
  · rw [hheld.1]
    exact List.mem_singleton.2 rfl

end System

end CompilerFabric
