import CompilerFabric.Base.Window
import CompilerFabric.Ipc.Channel
import Mathlib.Data.Finset.Basic
import Mathlib.Data.Finset.Lattice.Lemmas

namespace CompilerFabric

open Base (latest)

/-! The requests a connection remembers. -/

/-- The ids of a connection's latest requests: in the order in which they came, and as a set. -/
structure ReplayGuard where
  recentRequests : List UInt64 := []
  recentSet : Finset UInt64 := ∅
deriving DecidableEq

namespace ReplayGuard

/-- `FramedConnection::is_replay`. -/
def isReplay (g : ReplayGuard) (id : UInt64) : Bool := id ∈ g.recentSet

/-- The loop of `note_request`: the oldest go while there are more than the window. -/
def evict (window : Nat) : List UInt64 → Finset UInt64 → ReplayGuard
  | [],set => ⟨[],set⟩
  | oldest::rest,set =>
      if window<(oldest::rest).length then evict window rest (set.erase oldest)
      else ⟨oldest::rest,set⟩

/-- `FramedConnection::note_request`. -/
def noteRequest (options : ConnectionOptions) (g : ReplayGuard) (id : UInt64) : Bool × ReplayGuard :=
  if id=0 then (true,g)
  else if id ∈ g.recentSet then (false,g)
  else (true,evict options.replayWindow (g.recentRequests++[id]) (insert id g.recentSet))

/-- A call of `note_request` between the identities that were accepted before, zero apart, and
those that are then. -/
def serve (options : ConnectionOptions) (s : List UInt64 × ReplayGuard) (id : UInt64) :
    List UInt64 × ReplayGuard :=
  let (accepted,g) := s.2.noteRequest options id
  (if accepted=true ∧ id ≠ 0 then s.1++[id] else s.1,g)

/-- Any calls of `note_request` on a new connection. -/
def served (options : ConnectionOptions) (ids : List UInt64) : List UInt64 × ReplayGuard :=
  ids.foldl (serve options) ([],{})

/-- The queue and the set are in step: the last identities accepted, as many as the window takes. -/
structure Remembers (window : Nat) (history : List UInt64) (g : ReplayGuard) : Prop where
  queue : g.recentRequests.reverse=(latest history).take window
  set : g.recentSet=g.recentRequests.toFinset
  nonzero : 0 ∉ history

variable {options : ConnectionOptions} {window : Nat} {history queue : List UInt64}
  {g : ReplayGuard} {id : UInt64}

theorem Remembers.mem_iff (h : Remembers window history g) :
    id ∈ g.recentSet ↔ id ∈ (latest history).take window := by
  rw [h.set,List.mem_toFinset,← List.mem_reverse,h.queue]

theorem Remembers.nodup (h : Remembers window history g) : g.recentRequests.Nodup := by
  rw [← List.nodup_reverse,h.queue]
  exact (Base.latest_nodup history).sublist (List.take_sublist _ _)

theorem Remembers.length_le (h : Remembers window history g) : g.recentRequests.length ≤ window := by
  rw [← List.length_reverse,h.queue]
  exact List.length_take_le _ _

theorem Remembers.not_mem_zero (h : Remembers window history g) : 0 ∉ g.recentSet := by
  rw [h.mem_iff]
  intro hz
  exact h.nonzero (Base.mem_latest.1 (List.mem_of_mem_take hz))

/-- What the loop takes off the queue it takes out of the set. -/
theorem evict_eq (hn : queue.Nodup) : evict window queue queue.toFinset=
    ⟨queue.drop (queue.length-window),(queue.drop (queue.length-window)).toFinset⟩ := by
  induction queue with
  | nil => simp [evict]
  | cons oldest rest ih =>
    obtain ⟨hout,hrest⟩ := List.nodup_cons.1 hn
    rw [evict]
    split_ifs with hlong
    · have herase : (oldest::rest).toFinset.erase oldest=rest.toFinset := by
        rw [List.toFinset_cons,Finset.erase_insert (by simpa using hout)]
      have hdrop : (oldest::rest).length-window=rest.length-window+1 := by
        rw [List.length_cons] at hlong ⊢
        omega
      rw [herase,ih hrest,hdrop,List.drop_succ_cons]
    · have hzero : (oldest::rest).length-window=0 := by omega
      rw [hzero,List.drop_zero]

theorem reverse_drop_append (queue : List UInt64) (id : UInt64) (window : Nat) :
    ((queue++[id]).drop ((queue++[id]).length-window)).reverse=(id::queue.reverse).take window := by
  have hreverse : (queue++[id]).reverse=id::queue.reverse := by simp
  rw [List.reverse_drop,hreverse]
  by_cases hw : window ≤ (queue++[id]).length
  · rw [Nat.sub_sub_self hw]
  · have hshort : (id::queue.reverse).length ≤ window := by
      rw [← hreverse,List.length_reverse]
      omega
    have hall : (queue++[id]).length-((queue++[id]).length-window)=(queue++[id]).length := by omega
    rw [hall,List.take_of_length_le hshort,← List.length_reverse,hreverse,List.take_length]

/-- A new identity comes to the end of the queue and takes the place of the oldest. -/
theorem Remembers.accepts (h : Remembers options.replayWindow history g) (hid : id ≠ 0)
    (hout : id ∉ g.recentRequests) :
    let queue := (g.recentRequests++[id]).drop
      ((g.recentRequests++[id]).length-options.replayWindow)
    g.noteRequest options id=(true,⟨queue,queue.toFinset⟩) := by
  have hmem : id ∉ g.recentSet := by rwa [h.set,List.mem_toFinset]
  have hnodup : (g.recentRequests++[id]).Nodup := by
    refine List.nodup_append.2 ⟨h.nodup,List.nodup_singleton id,?_⟩
    rintro x hx y hy rfl
    exact hout (List.mem_singleton.1 hy ▸ hx)
  have hset : insert id g.recentSet=(g.recentRequests++[id]).toFinset := by
    rw [h.set,List.toFinset_append,Finset.union_comm]
    rfl
  rw [noteRequest,if_neg hid,if_neg hmem,hset,evict_eq hnodup]

/-- Any call keeps the queue and the set in step. -/
theorem Remembers.serve (h : Remembers options.replayWindow history g) (id : UInt64) :
    Remembers options.replayWindow (serve options (history,g) id).1
      (serve options (history,g) id).2 := by
  by_cases hzero : id=0
  · have hsame : ReplayGuard.serve options (history,g) id=(history,g) := by
      simp [ReplayGuard.serve,noteRequest,hzero]
    rwa [hsame]
  by_cases hmem : id ∈ g.recentSet
  · have hsame : ReplayGuard.serve options (history,g) id=(history,g) := by
      simp [ReplayGuard.serve,noteRequest,hzero,hmem]
    rwa [hsame]
  have hout : id ∉ g.recentRequests := by rwa [h.set,List.mem_toFinset] at hmem
  have haccepts := h.accepts hzero hout
  dsimp only at haccepts
  simp only [ReplayGuard.serve,haccepts,true_and,if_pos hzero]
  refine ⟨?_,rfl,?_⟩
  · have hfresh := (not_congr h.mem_iff).1 hmem
    rw [Base.take_latest_append hfresh,← h.queue]
    exact reverse_drop_append _ _ _
  · simp only [List.mem_append,List.mem_singleton,not_or]
    exact ⟨h.nonzero,fun hz => hzero hz.symm⟩

theorem served_remembers (options : ConnectionOptions) (ids : List UInt64) :
    Remembers options.replayWindow (served options ids).1 (served options ids).2 := by
  have run (s : List UInt64 × ReplayGuard) (h : Remembers options.replayWindow s.1 s.2) :
      Remembers options.replayWindow (ids.foldl (ReplayGuard.serve options) s).1
        (ids.foldl (ReplayGuard.serve options) s).2 := by
    induction ids generalizing s with
    | nil => exact h
    | cons id ids ih => exact ih _ (h.serve id)
  refine run ([],{}) ⟨?_,rfl,List.not_mem_nil⟩
  simp [latest]

theorem noteRequest_refuses_iff (hid : id ≠ 0) :
    (g.noteRequest options id).1=false ↔ g.isReplay id=true := by
  rw [noteRequest,if_neg hid,isReplay]
  by_cases hmem : id ∈ g.recentSet
  · simp [hmem]
  · simp [hmem]

/-- The queue alone tells a replay as the set does. -/
theorem Remembers.refines (h : Remembers options.replayWindow history g) :
    CompilerFabric.noteRequest options g.recentRequests id=
      if (g.noteRequest options id).1 then some (g.noteRequest options id).2.recentRequests
      else none := by
  by_cases hzero : id=0
  · simp [CompilerFabric.noteRequest,noteRequest,hzero]
  by_cases hold : id ∈ g.recentRequests
  · have hmem : id ∈ g.recentSet := by rwa [h.set,List.mem_toFinset]
    simp [CompilerFabric.noteRequest,noteRequest,hzero,hold,hmem]
  · rw [h.accepts hzero hold,CompilerFabric.noteRequest,if_neg hzero,if_neg hold]
    rfl

/-- After any calls of `note_request` the set holds what the queue does, without duplicates and
within the window, and the next call refuses the last identities accepted that the window takes,
and no others. -/
theorem replay_window (options : ConnectionOptions) (ids : List UInt64) :
    let history := (served options ids).1
    let g := (served options ids).2
    (∀ id,id ∈ g.recentSet ↔ id ∈ g.recentRequests) ∧ g.recentRequests.Nodup ∧
      g.recentRequests.length ≤ options.replayWindow ∧
      (∀ id,id ≠ 0 → ((g.noteRequest options id).1=false ↔
        id ∈ (latest history).take options.replayWindow)) ∧
      g.noteRequest options 0=(true,g) ∧ 0 ∉ g.recentSet := by
  intro history g
  have h : Remembers options.replayWindow history g := served_remembers options ids
  refine ⟨?_,h.nodup,h.length_le,?_,rfl,h.not_mem_zero⟩
  · intro id
    rw [h.set,List.mem_toFinset]
  · intro id hid
    rw [noteRequest_refuses_iff hid,isReplay,decide_eq_true_iff]
    exact h.mem_iff

/-- A replay within a window of two, an evicted identity used again, and a window of zero. -/
theorem replay_window_reuse :
    ((served { replayWindow := 2 } [7,8,7,0,9]).2.noteRequest { replayWindow := 2 } 8).1=false ∧
    ((served { replayWindow := 2 } [7,8,7,0,9]).2.noteRequest { replayWindow := 2 } 7).1 ≠ false ∧
    ((served { replayWindow := 0 } [7]).2.noteRequest { replayWindow := 0 } 7).1 ≠ false := by
  have hrefuses := (replay_window { replayWindow := 2 } [7,8,7,0,9]).2.2.2.1
  have hforgets := (replay_window { replayWindow := 0 } [7]).2.2.2.1
  refine ⟨(hrefuses 8 (by decide)).2 ?_,?_,?_⟩
  · decide
  · exact (not_congr (hrefuses 7 (by decide))).2 (by decide)
  · exact (not_congr (hforgets 7 (by decide))).2 (by decide)

end ReplayGuard

end CompilerFabric
