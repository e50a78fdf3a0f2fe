import CompilerFabric.Runtime.State

namespace CompilerFabric

open Base (Bytes)

/-! What is captured of a child's output. -/

namespace ProcessCapture

/-- The captured text of a stream. -/
def target (c : ProcessCapture) (isStdout : Bool) : Bytes :=
  if isStdout then c.standardOutput else c.standardError

def dropped (c : ProcessCapture) (isStdout : Bool) : UInt64 :=
  if isStdout then c.droppedStandardOutputBytes else c.droppedStandardErrorBytes

def append (c : ProcessCapture) (isStdout : Bool) (text : Bytes) : ProcessCapture :=
  if isStdout then { c with standardOutput := c.standardOutput++text }
  else { c with standardError := c.standardError++text }

def drop (c : ProcessCapture) (isStdout : Bool) (count : UInt64) : ProcessCapture :=
  if isStdout then { c with
    truncated := true
    droppedStandardOutputBytes := c.droppedStandardOutputBytes+count }
  else { c with
    truncated := true
    droppedStandardErrorBytes := c.droppedStandardErrorBytes+count }

/-- A turn of the loop of `read_stream` with a buffer that `ReadFile` has put bytes into. -/
def store (maxCaptureBytes : Nat) (isStdout : Bool) (buffer : Bytes) (c : ProcessCapture) :
    ProcessCapture :=
  let size := (c.target isStdout).length
  let room := if size < maxCaptureBytes then maxCaptureBytes-size else 0
  let take := min room buffer.length
  let c := if 0<take then c.append isStdout (buffer.take take) else c
  if take<buffer.length then c.drop isStdout (UInt64.ofNat (buffer.length-take)) else c

/-- The sizes that `wait` fills in when both readers have ended. -/
def finish (c : ProcessCapture) : ProcessCapture := { c with
  standardOutputBytes := UInt64.ofNat c.standardOutput.length
  standardErrorBytes := UInt64.ofNat c.standardError.length }

end ProcessCapture

/-- An answer of `ReadFile` to the reader of standard output or of standard error: the bytes read,
or nothing where it fails. -/
abbrev ReadAnswer := Bool × Option Bytes

/-- The readers of a child, which take their turns in any order. -/
structure Readers where
  capture : ProcessCapture := {}
  stopped : Bool → Bool := fun _ => false

namespace Readers

/-- A turn of a reader. It ends where a read fails or has no bytes. -/
def turn (maxCaptureBytes : Nat) (s : Readers) : ReadAnswer → Readers
  | (isStdout,some (c::rest)) =>
      if s.stopped isStdout then s
      else { s with capture := s.capture.store maxCaptureBytes isStdout (c::rest) }
  | (isStdout,_) => { s with stopped := Function.update s.stopped isStdout true }

def run (maxCaptureBytes : Nat) (answers : List ReadAnswer) : Readers :=
  answers.foldl (turn maxCaptureBytes) {}

/-- The bytes of a stream that arrive: those read before its reader ends. -/
def arrived (isStdout : Bool) : List ReadAnswer → Bytes
  | [] => []
  | (side,answer)::answers =>
      if side=isStdout then match answer with
        | some (c::rest) => c::rest++arrived isStdout answers
        | _ => []
      else arrived isStdout answers

end Readers

namespace ProcessCapture

variable {m : Nat} {c : ProcessCapture} {isStdout side : Bool} {buffer : Bytes}

@[simp] theorem append_target (text : Bytes) : (c.append isStdout text).target side=
    if side=isStdout then c.target isStdout++text else c.target side := by
  cases isStdout <;> cases side <;> rfl

@[simp] theorem append_dropped (text : Bytes) :
    (c.append isStdout text).dropped side=c.dropped side := by
  cases isStdout <;> cases side <;> rfl

@[simp] theorem append_truncated (text : Bytes) :
    (c.append isStdout text).truncated=c.truncated := by
  cases isStdout <;> rfl

@[simp] theorem drop_target (count : UInt64) : (c.drop isStdout count).target side=c.target side := by
  cases isStdout <;> cases side <;> rfl

@[simp] theorem drop_dropped (count : UInt64) : (c.drop isStdout count).dropped side=
    if side=isStdout then c.dropped isStdout+count else c.dropped side := by
  cases isStdout <;> cases side <;> rfl

@[simp] theorem drop_truncated (count : UInt64) : (c.drop isStdout count).truncated=true := by
  cases isStdout <;> rfl

/-- A turn stores what there is room for, and then counts the rest. -/
theorem store_eq : c.store m isStdout buffer=
    let room := m-(c.target isStdout).length
    let stored := if 0 < min room buffer.length then c.append isStdout (buffer.take room) else c
    if room<buffer.length then stored.drop isStdout (UInt64.ofNat (buffer.length-room)) else stored := by
  have hroom : (if (c.target isStdout).length < m then m-(c.target isStdout).length else 0)=
      m-(c.target isStdout).length := by
    split_ifs with h
    · rfl
    · omega
  unfold store
  dsimp only
  rw [hroom,← List.take_eq_take_min]
  generalize m-(c.target isStdout).length=room
  by_cases hlong : room<buffer.length
  · rw [Nat.min_eq_left (Nat.le_of_lt hlong)]
  · rw [Nat.min_eq_right (Nat.not_lt.1 hlong),if_neg (Nat.lt_irrefl _),if_neg hlong]

theorem store_target : (c.store m isStdout buffer).target side=
    if side=isStdout then c.target isStdout++buffer.take (m-(c.target isStdout).length)
    else c.target side := by
  rw [store_eq]
  generalize m-(c.target isStdout).length=room
  have hstored : (if 0 < min room buffer.length then c.append isStdout (buffer.take room)
      else c).target side=if side=isStdout then c.target isStdout++buffer.take room
        else c.target side := by
    split_ifs with hsome hside hside
    · simp [hside]
    · simp [hside]
    · have hnone : buffer.take room=[] := by
        rw [← List.length_eq_zero_iff,List.length_take]
        omega
      rw [hnone,List.append_nil,hside]
    · rfl
  dsimp only
  by_cases hlong : room<buffer.length
  · rw [if_pos hlong,drop_target,hstored]
  · rw [if_neg hlong,hstored]

theorem store_dropped : (c.store m isStdout buffer).dropped side=
    if side=isStdout then
      c.dropped isStdout+UInt64.ofNat (buffer.length-(m-(c.target isStdout).length))
    else c.dropped side := by
  rw [store_eq]
  generalize m-(c.target isStdout).length=room
  have hstored (side : Bool) : (if 0 < min room buffer.length then c.append isStdout (buffer.take room)
      else c).dropped side=c.dropped side := by
    split_ifs
    · simp
    · rfl
  dsimp only
  by_cases hlong : room<buffer.length
  · rw [if_pos hlong,drop_dropped,hstored,hstored]
  · have hzero : buffer.length-room=0 := by omega
    rw [if_neg hlong,hstored,hzero]
    split_ifs with hside
    · rw [hside]
      exact (UInt64.add_zero _).symm
    · rfl

theorem store_truncated : (c.store m isStdout buffer).truncated=
    (c.truncated || decide (m-(c.target isStdout).length<buffer.length)) := by
  rw [store_eq]
  generalize m-(c.target isStdout).length=room
  dsimp only
  by_cases hlong : room<buffer.length
  · simp [hlong]
  · rw [if_neg hlong]
    split_ifs <;> simp [hlong]

end ProcessCapture

/-- What is captured and what is dropped of the bytes that have arrived. -/
structure ProcessCapture.Accounts (m : Nat) (all : Bool → Bytes) (c : ProcessCapture) : Prop where
  target : ∀ side,c.target side=(all side).take m
  dropped : ∀ side,c.dropped side=UInt64.ofNat ((all side).length-(c.target side).length)
  truncated : c.truncated=true ↔ ∃ side,(c.target side).length<(all side).length

namespace ProcessCapture

variable {m : Nat} {all : Bool → Bytes} {c : ProcessCapture} {isStdout : Bool} {buffer : Bytes}

theorem Accounts.truncated_iff (h : c.Accounts m all) :
    c.truncated=true ↔ ∃ side,m<(all side).length := by
  rw [h.truncated]
  refine exists_congr fun side => ?_
  rw [h.target side,List.length_take]
  omega

/-- The bytes of a buffer arrive behind those of the stream. -/
theorem Accounts.store (h : c.Accounts m all) (isStdout : Bool) (buffer : Bytes) :
    (c.store m isStdout buffer).Accounts m
      (Function.update all isStdout (all isStdout++buffer)) := by
  have hsize : (c.target isStdout).length=min m (all isStdout).length := by
    rw [h.target isStdout,List.length_take]
  have htarget : ∀ side,(c.store m isStdout buffer).target side=
      (Function.update all isStdout (all isStdout++buffer) side).take m := by
    intro side
    rw [store_target]
    by_cases hs : side=isStdout
    · subst hs
      rw [if_pos rfl,Function.update_self,List.take_append,← h.target side]
      congr 2
      omega
    · rw [if_neg hs,Function.update_of_ne hs,h.target side]
  refine ⟨htarget,?_,?_⟩
  · intro side
    rw [store_dropped,htarget]
    by_cases hs : side=isStdout
    · subst hs
      rw [if_pos rfl,Function.update_self,h.dropped side,← UInt64.ofNat_add,hsize]
      congr 1
      simp only [List.length_take,List.length_append]
      omega
    · rw [if_neg hs,Function.update_of_ne hs,h.dropped side,h.target side]
  · rw [store_truncated,Bool.or_eq_true,decide_eq_true_iff,h.truncated_iff,hsize]
    simp only [htarget,List.length_take]
    constructor
    · rintro (⟨side,hside⟩ | hroom)
      · refine ⟨side,?_⟩
        by_cases hs : side=isStdout
        · subst hs
          rw [Function.update_self,List.length_append]
          omega
        · rw [Function.update_of_ne hs]
          omega
      · refine ⟨isStdout,?_⟩
        rw [Function.update_self,List.length_append]
        omega
    · rintro ⟨side,hside⟩
      by_cases hs : side=isStdout
      · subst hs
        rw [Function.update_self,List.length_append] at hside
        by_cases hm : m<(all side).length
        · exact .inl ⟨side,hm⟩
        · exact .inr (by omega)
      · rw [Function.update_of_ne hs] at hside
        exact .inl ⟨side,by omega⟩

/-- The sizes that a process reports add up to what it has written. -/
theorem Accounts.finish (h : c.Accounts m all) :
    c.finish.standardOutputBytes+c.finish.droppedStandardOutputBytes=UInt64.ofNat (all true).length ∧
    c.finish.standardErrorBytes+c.finish.droppedStandardErrorBytes=UInt64.ofNat (all false).length := by
  have sum (side : Bool) : UInt64.ofNat (c.target side).length+c.dropped side=
      UInt64.ofNat (all side).length := by
    have hle : (c.target side).length ≤ (all side).length := by
      rw [h.target side,List.length_take]
      omega
    rw [h.dropped side,← UInt64.ofNat_add,Nat.add_sub_cancel' hle]
  exact ⟨sum true,sum false⟩

end ProcessCapture

namespace Readers

variable {m : Nat} {all : Bool → Bytes} {s : Readers} {answers : List ReadAnswer}

/-- A reader that has ended takes nothing more, and the other one goes on. -/
theorem foldl_accounts (h : s.capture.Accounts m all) :
    (answers.foldl (turn m) s).capture.Accounts m fun side =>
      if s.stopped side then all side else all side++arrived side answers := by
  induction answers generalizing s all with
  | nil =>
    have hsame : (fun side => if s.stopped side=true then all side else all side++arrived side [])=
        all := by
      funext side
      simp [arrived]
    rwa [hsame]
  | cons answer answers ih =>
    obtain ⟨isStdout,answer⟩ := answer
    have hended (hend : arrived isStdout ((isStdout,answer)::answers)=[])
        (hturn : turn m s (isStdout,answer)={ s with
          stopped := Function.update s.stopped isStdout true }) :
        (answers.foldl (turn m) (turn m s (isStdout,answer))).capture.Accounts m fun side =>
          if s.stopped side then all side else all side++arrived side ((isStdout,answer)::answers) := by
      have hrest := @ih all { s with stopped := Function.update s.stopped isStdout true } h
      rw [hturn]
      convert hrest using 2 with side
      by_cases hs : side=isStdout
      · subst hs
        simp [hend]
      · have hside : isStdout ≠ side := fun he => hs he.symm
        simp [hs,hside,arrived]
    match answer with
    | none => exact hended (by simp [arrived]) rfl
    | some [] => exact hended (by simp [arrived]) rfl
    | some (c::rest) =>
      by_cases hstopped : s.stopped isStdout=true
      · have hturn : turn m s (isStdout,some (c::rest))=s := by simp [turn,hstopped]
        rw [List.foldl_cons,hturn]
        convert ih h using 2 with side
        by_cases hs : side=isStdout
        · subst hs
          simp [hstopped]
        · have hside : isStdout ≠ side := fun he => hs he.symm
          simp [arrived,hside]
      · have hturn : turn m s (isStdout,some (c::rest))={ s with
            capture := s.capture.store m isStdout (c::rest) } := by simp [turn,hstopped]
        have hrest := @ih _ { s with capture := s.capture.store m isStdout (c::rest) }
          (h.store isStdout (c::rest))
        rw [List.foldl_cons,hturn]
        convert hrest using 2 with side
        by_cases hs : side=isStdout
        · subst hs
          simp [arrived,hstopped]
        · have hside : isStdout ≠ side := fun he => hs he.symm
          simp [arrived,hs,hside]

/-- However the reads of both streams come in, of each the first bytes are captured up to the
ceiling, the others are counted, and the capture is marked just when there are any. -/
theorem run_accounts (maxCaptureBytes : Nat) (answers : List ReadAnswer) :
    (run maxCaptureBytes answers).capture.Accounts maxCaptureBytes fun side =>
      arrived side answers := by
  have hstart : ({} : ProcessCapture).Accounts maxCaptureBytes fun _ => [] :=
    ⟨fun side => by cases side <;> simp [ProcessCapture.target],fun side => by cases side <;> rfl,
      by simp⟩
  exact @foldl_accounts maxCaptureBytes (fun _ => []) {} answers hstart

end Readers

end CompilerFabric
