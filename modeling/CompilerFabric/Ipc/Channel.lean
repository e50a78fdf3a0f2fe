import CompilerFabric.Core.Registry
import CompilerFabric.Ipc.Protocol
import Mathlib.Algebra.Order.Group.Multiset
import Mathlib.Tactic.Abel

namespace CompilerFabric

open Base (Bytes)

structure MessageType where
  raw : UInt16
deriving DecidableEq

namespace MessageType

def hello : MessageType := ⟨1⟩
def ping : MessageType := ⟨3⟩
def pong : MessageType := ⟨4⟩
def error : MessageType := ⟨5⟩

end MessageType

structure Message where
  type : MessageType
  flags : UInt16 := 0
  requestId : UInt64 := 0
  payload : Bytes := []
deriving DecidableEq

def StatusCode.protocolDuplicateRequest : StatusCode := ⟨104⟩

/-- `encode_error` without a subject. -/
def encodeError (code : StatusCode) (detail : Bytes) : Bytes :=
  (((({} : FieldWriter).u16 1 code.raw).text 2 detail).text 3 []).take

structure ConnectionOptions where
  maxFramePayload : Nat := 4194304
  replayWindow : Nat := 4096

/-- `FramedConnection::note_request` on the ids remembered, oldest first: the new memory, or nothing
for a replay. -/
def noteRequest (options : ConnectionOptions) (recent : List UInt64) (id : UInt64) :
    Option (List UInt64) :=
  if id=0 then some recent
  else if id ∈ recent then none
  else some ((recent++[id]).drop ((recent++[id]).length-options.replayWindow))

inductive Side where
  | near
  | far
deriving DecidableEq

def Side.other : Side → Side
  | .near => .far
  | .far => .near

/-- The `number`-th call of `request` at an end. -/
structure CallId where
  side : Side
  number : Nat
deriving DecidableEq

/-- What a frame was sent as. The code does not see this. -/
inductive Role where
  | request (call : CallId)
  | reply (call : CallId)
  /-- An error sent back for a frame turned away, or an answer to something that was no request. -/
  | stray (call : CallId)
deriving DecidableEq

def Role.call : Role → CallId
  | .request c => c
  | .reply c => c
  | .stray c => c

structure Envelope where
  message : Message
  role : Role
deriving DecidableEq

/-- What a call of `request` returned. -/
inductive Outcome where
  | returned (frame : Envelope)
  | refused
deriving DecidableEq

/-- One `PeerChannel` with its connection. The last five fields record what happened. -/
structure Endpoint where
  options : ConnectionOptions := {}
  handler : Bool := true
  counter : UInt64 := 0
  /-- The number of the call that waits for a reply with the id. -/
  pending : Table Nat := ∅
  recent : List UInt64 := []
  /-- The frame the handler is at work on; the reader thread waits for it. -/
  serving : Option Envelope := none
  inbox : List Envelope := []
  /-- Requests whose calls have registered and not sent yet, one for each thread. -/
  unsent : List Envelope := []
  calls : Nat := 0
  outcomes : List (Nat × Outcome) := []
  turnedAway : List Envelope := []
  handled : List Envelope := []
  dropped : List Envelope := []

/-- Both ends of a connection. -/
structure Link where
  ends : Side → Endpoint := fun _ => {}
  up : Bool := true

namespace Link

def set (l : Link) (s : Side) (e : Endpoint) : Link :=
  { l with ends := fun t => if t=s then e else l.ends t }

/-- `FramedConnection::send`: whether the frame leaves for the other end. -/
def transmits (l : Link) (s : Side) (m : Message) : Bool :=
  l.up && m.payload.length ≤ (l.ends s).options.maxFramePayload

def deliver (l : Link) (s : Side) (f : Envelope) : Link :=
  l.set s { l.ends s with inbox := (l.ends s).inbox++[f] }

/-- The id a request gets: its own, or the next one of the counter. -/
def drawId (e : Endpoint) (m : Message) : UInt64 :=
  if m.requestId=0 then e.counter+1 else m.requestId

/-- `PeerChannel::request` up to the registration of its promise. -/
def call (l : Link) (s : Side) (m : Message) : Link :=
  if !l.up then l else
  let e := l.ends s
  let id := drawId e m
  l.set s { e with
    counter := if m.requestId=0 then e.counter+1 else e.counter
    pending := e.pending.insert id e.calls
    unsent := e.unsent++[⟨{ m with requestId := id },.request ⟨s,e.calls⟩⟩]
    calls := e.calls+1 }

/-- The thread of the `k`-th unsent request sends it, or takes its promise back. -/
def send (l : Link) (s : Side) (k : Nat) : Link :=
  let e := l.ends s
  match e.unsent[k]? with
  | none => l
  | some f =>
      let e' := { e with unsent := e.unsent.eraseIdx k }
      if l.transmits s f.message then (l.set s e').deliver s.other f
      else l.set s { e' with
        pending := e.pending.erase f.message.requestId
        outcomes := (f.role.call.number,.refused)::e.outcomes }

/-- The reader stops and closes the socket, the other end's reader follows: every waiting call is
refused. -/
def lose (l : Link) : Link where
  up := false
  ends s := { l.ends s with
    pending := ∅,inbox := [],unsent := [],serving := none
    outcomes := (l.ends s).pending.toList.map (fun p => (p.2,.refused))++(l.ends s).outcomes }

/-- An error frame for a message turned away; whether it can be sent is not looked at. -/
def refuseReplay (l : Link) (s : Side) (f : Envelope) : Link :=
  let failure : Message :=
    { type := .error
      requestId := f.message.requestId
      payload := encodeError .protocolDuplicateRequest
        (ascii "this request id was already served on this connection") }
  if l.transmits s failure then l.deliver s.other ⟨failure,.stray f.role.call⟩ else l

/-- One turn of `PeerChannel::pump`, up to the call of the handler. -/
def pump (l : Link) (s : Side) : Link :=
  let e := l.ends s
  match e.serving,e.inbox with
  | none,f::rest =>
      let e := { e with inbox := rest }
      if e.options.maxFramePayload < f.message.payload.length then l.lose
      else
        match if f.message.type=.hello then some e.recent
            else noteRequest e.options e.recent f.message.requestId with
        | none => refuseReplay (l.set s { e with turnedAway := f::e.turnedAway }) s f
        | some recent =>
            match e.pending[f.message.requestId]? with
            | some n => l.set s { e with
                recent,pending := e.pending.erase f.message.requestId
                outcomes := (n,.returned f)::e.outcomes }
            | none =>
                if e.handler then
                  l.set s { e with recent,serving := some f,handled := f::e.handled }
                else l.set s { e with recent,dropped := f::e.dropped }
  | _,_ => l

/-- The message `pump` makes of what the handler gave. -/
def responseTo (f : Envelope) : Result Message → Message
  | .ok m => { m with requestId := f.message.requestId }
  | .error e =>
      { type := .error,requestId := f.message.requestId,payload := encodeError e.code e.message }

def answerRole : Role → Role
  | .request c => .reply c
  | r => .stray r.call

/-- The handler returns and `pump` sends its reply, if it can be sent. -/
def answer (l : Link) (s : Side) (reply : Result Message) : Link :=
  let e := l.ends s
  match e.serving with
  | none => l
  | some f =>
      let response : Envelope := ⟨responseTo f reply,answerRole f.role⟩
      if l.transmits s response.message then (l.set s { e with serving := none }).deliver s.other response
      else l.set s { e with serving := none,dropped := response::e.dropped }

inductive Event where
  | call (s : Side) (m : Message)
  | send (s : Side) (k : Nat)
  | pump (s : Side)
  | answer (s : Side) (reply : Result Message)
  | lose

def apply (l : Link) : Event → Link
  | .call s m => l.call s m
  | .send s k => l.send s k
  | .pump s => l.pump s
  | .answer s reply => l.answer s reply
  | .lose => l.lose

def run (l : Link) (es : List Event) : Link := es.foldl apply l

end Link

namespace Side

@[simp] theorem other_other (s : Side) : s.other.other=s := by cases s <;> rfl

@[simp] theorem other_ne (s : Side) : s.other ≠ s := by cases s <;> decide

@[simp] theorem ne_other (s : Side) : s ≠ s.other := by cases s <;> decide

theorem forall_iff (s : Side) {p : Side → Prop} : (∀ t,p t) ↔ p s ∧ p s.other := by
  refine ⟨fun h => ⟨h s,h s.other⟩,fun h t => ?_⟩
  obtain ⟨h₁,h₂⟩ := h
  cases s <;> cases t <;> assumption

end Side

theorem noteRequest_fresh {options : ConnectionOptions} {recent : List UInt64} {id : UInt64}
    (h : id ∉ recent) :
    ∃ recent',noteRequest options recent id=some recent' ∧ ∀ x ∈ recent',x ∈ recent ∨ x=id := by
  unfold noteRequest
  split_ifs
  · exact ⟨recent,rfl,fun x hx => .inl hx⟩
  · refine ⟨_,rfl,fun x hx => ?_⟩
    simpa using List.mem_of_mem_drop hx

/-- The call a frame belongs to and the id it carries. -/
def Envelope.token (f : Envelope) : CallId × UInt64 := (f.role.call,f.message.requestId)

namespace Endpoint

/-- The tokens of the frames that are at an end. -/
def tokens (e : Endpoint) : Multiset (CallId × UInt64) :=
  Multiset.map Envelope.token (e.unsent+(e.inbox : Multiset Envelope)+e.serving.toList)

end Endpoint

namespace Link

@[simp] theorem set_self (l : Link) (s : Side) (e : Endpoint) : (l.set s e).ends s=e := by simp [set]

@[simp] theorem set_other (l : Link) (s : Side) (e : Endpoint) :
    (l.set s e).ends s.other=l.ends s.other := by simp [set]

@[simp] theorem set_up (l : Link) (s : Side) (e : Endpoint) : (l.set s e).up=l.up := rfl

/-- The tokens of all requests and replies that are on their way. -/
def tokens (l : Link) : Multiset (CallId × UInt64) := (l.ends .near).tokens+(l.ends .far).tokens

theorem tokens_eq (l : Link) (s : Side) : l.tokens=(l.ends s).tokens+(l.ends s.other).tokens := by
  cases s
  · rfl
  · exact add_comm (l.ends .near).tokens _

/-- Every `request` returns only the reply the other end sent to it, no frame is turned away as a
replay, only requests reach a handler, nothing is dropped, and each call has its frame on the
way or has returned. -/
structure Sound (l : Link) : Prop where
  returned : ∀ s n f,(n,.returned f) ∈ (l.ends s).outcomes → f.role=.reply ⟨s,n⟩
  turnedAway : ∀ s,(l.ends s).turnedAway=[]
  handled : ∀ s,∀ f ∈ (l.ends s).handled,∃ n,f.role=.request ⟨s.other,n⟩
  dropped : ∀ s,(l.ends s).dropped=[]
  kept : ∀ s n,n<(l.ends s).calls →
    (∃ id,(⟨s,n⟩,id) ∈ l.tokens) ∨ ∃ o,(n,o) ∈ (l.ends s).outcomes

/-- Ids tell the calls on their way apart, each end waits for its own of them, and none of them is
remembered where its frame is still to arrive. -/
structure Matched (l : Link) : Prop where
  unique : (l.tokens.map Prod.snd).Nodup
  waiting : ∀ s (id : UInt64) n,(l.ends s).pending[id]?=some n ↔ (⟨s,n⟩,id) ∈ l.tokens
  unsent : ∀ s,∀ f ∈ (l.ends s).unsent,(∃ n,f.role=.request ⟨s,n⟩) ∧
    f.message.requestId ∉ (l.ends s.other).recent
  serving : ∀ s,∀ f ∈ (l.ends s).serving,∃ n,f.role=.request ⟨s.other,n⟩
  inbox : ∀ s,∀ f ∈ (l.ends s).inbox,
    ((∃ n,f.role=.request ⟨s.other,n⟩) ∨ ∃ n,f.role=.reply ⟨s,n⟩) ∧
    f.message.requestId ∉ (l.ends s).recent
  unnoted : ∀ t ∈ l.tokens,t.2 ∉ (l.ends t.1.side).recent
  handler : ∀ s,(l.ends s).handler=true
  down : l.up=false → l.tokens=0

/-- An id no end remembers or waits for and no frame carries. -/
def Free (l : Link) (id : UInt64) : Prop := ∀ s,
  id ∉ (l.ends s).recent ∧ (l.ends s).pending[id]?=none ∧
    ∀ f ∈ (l.ends s).unsent++(l.ends s).inbox++(l.ends s).serving.toList,f.message.requestId ≠ id

instance (l : Link) (id : UInt64) : Decidable (l.Free id) :=
  decidable_of_iff _ (Side.forall_iff .near).symm

/-- The condition on a step: a request gets a free id, and a reply fits into a frame. -/
def Clear (l : Link) : Event → Prop
  | .call s m => l.Free (drawId (l.ends s) m)
  | .answer s reply => ∀ f ∈ (l.ends s).serving,
      (responseTo f reply).payload.length ≤ (l.ends s).options.maxFramePayload
  | _ => True

instance (l : Link) (e : Event) : Decidable (l.Clear e) :=
  match e with
  | .call s m => inferInstanceAs (Decidable (l.Free (drawId (l.ends s) m)))
  | .answer s _ => inferInstanceAs (Decidable (∀ f ∈ (l.ends s).serving,_))
  | .send _ _ | .pump _ | .lose => inferInstanceAs (Decidable True)

def ClearRun (l : Link) : List Event → Prop
  | [] => True
  | e::es => l.Clear e ∧ (l.apply e).ClearRun es

def decidableClearRun : (l : Link) → (es : List Event) → Decidable (l.ClearRun es)
  | _,[] => inferInstanceAs (Decidable True)
  | l,e::es =>
      have := decidableClearRun (l.apply e) es
      inferInstanceAs (Decidable (l.Clear e ∧ (l.apply e).ClearRun es))

instance (l : Link) (es : List Event) : Decidable (l.ClearRun es) := decidableClearRun l es

/-- A connection on which nothing is under way yet, started with a handler at both ends. -/
structure Fresh (l : Link) : Prop where
  handler : ∀ s,(l.ends s).handler=true
  idle : ∀ s,(l.ends s).pending=∅ ∧ (l.ends s).unsent=[] ∧ (l.ends s).inbox=[] ∧
    (l.ends s).serving=none
  unrecorded : ∀ s,(l.ends s).calls=0 ∧ (l.ends s).outcomes=[] ∧ (l.ends s).turnedAway=[] ∧
    (l.ends s).handled=[] ∧ (l.ends s).dropped=[]

theorem mem_tokens {l : Link} {s : Side} {f : Envelope}
    (h : f ∈ (l.ends s).unsent++(l.ends s).inbox++(l.ends s).serving.toList) : f.token ∈ l.tokens := by
  rw [tokens_eq l s,Multiset.mem_add]
  refine .inl (Multiset.mem_map_of_mem _ ?_)
  simpa only [List.mem_append,Multiset.mem_add,Multiset.mem_coe] using h

theorem exists_frame {l : Link} {t : CallId × UInt64} (h : t ∈ l.tokens) :
    ∃ s,∃ f ∈ (l.ends s).unsent++(l.ends s).inbox++(l.ends s).serving.toList,f.token=t := by
  rcases Multiset.mem_add.1 h with h | h
  all_goals
    obtain ⟨f,hf,rfl⟩ := Multiset.mem_map.1 h
    exact ⟨_,f,by simpa only [List.mem_append,Multiset.mem_add,Multiset.mem_coe] using hf,rfl⟩

/-- Two tokens with one id are one. -/
theorem Matched.eq_of_id {l : Link} (h : l.Matched) {t u : CallId × UInt64} (ht : t ∈ l.tokens)
    (hu : u ∈ l.tokens) (he : t.2=u.2) : t=u :=
  Multiset.inj_on_of_nodup_map h.unique t ht u hu he

theorem Fresh.matched {l : Link} (h : l.Fresh) : l.Matched := by
  have ht : l.tokens=0 := by
    simp [tokens,Endpoint.tokens,h.idle]
  constructor <;> simp [ht,h.idle,h.handler]

theorem Fresh.sound {l : Link} (h : l.Fresh) : l.Sound := by
  constructor <;> simp [h.unrecorded]

section Steps

variable {l : Link} {s : Side}

theorem call_tokens (m : Message) (hup : l.up=true) :
    (l.call s m).tokens=(⟨s,(l.ends s).calls⟩,drawId (l.ends s) m)::ₘl.tokens := by
  rw [tokens_eq _ s,tokens_eq l s]
  simp only [call,hup,Bool.not_true,Bool.false_eq_true,if_false,set_self,set_other,Endpoint.tokens,
    ← Multiset.coe_add,Multiset.map_add,← Multiset.singleton_add,Multiset.coe_singleton,
    Multiset.map_singleton,Envelope.token,Role.call]
  abel

theorem Matched.call (h : l.Matched) (m : Message) (hc : l.Free (drawId (l.ends s) m)) :
    (l.call s m).Matched := by
  cases hup : l.up with
  | false =>
    have hl : l.call s m=l := by simp [Link.call,hup]
    rwa [hl]
  | true =>
    have ht := call_tokens (l := l) (s := s) m hup
    have hfresh : ∀ t ∈ l.tokens,t.2 ≠ drawId (l.ends s) m := by
      intro t ht'
      obtain ⟨r,f,hf,rfl⟩ := exists_frame ht'
      exact (hc r).2.2 f hf
    have hs : (l.call s m).ends s={ l.ends s with
        counter := if m.requestId=0 then (l.ends s).counter+1 else (l.ends s).counter
        pending := (l.ends s).pending.insert (drawId (l.ends s) m) (l.ends s).calls
        unsent := (l.ends s).unsent++
          [⟨{ m with requestId := drawId (l.ends s) m },.request ⟨s,(l.ends s).calls⟩⟩]
        calls := (l.ends s).calls+1 } := by simp [Link.call,hup]
    have ho : (l.call s m).ends s.other=l.ends s.other := by simp [Link.call,hup]
    have hrecent : ∀ r,((l.call s m).ends r).recent=(l.ends r).recent := by
      rw [Side.forall_iff s,hs,ho]
      exact ⟨rfl,rfl⟩
    have hup' : (l.call s m).up=l.up := by simp [Link.call,hup]
    generalize l.call s m=l' at *
    generalize drawId (l.ends s) m=id at *
    refine ⟨?_,?_,?_,?_,?_,?_,?_,?_⟩
    · rw [ht,Multiset.map_cons,Multiset.nodup_cons]
      refine ⟨fun hm => ?_,h.unique⟩
      obtain ⟨t,ht',he⟩ := Multiset.mem_map.1 hm
      exact hfresh t ht' he
    · rw [Side.forall_iff s,hs,ho]
      constructor
      · intro i n
        rw [ht,Multiset.mem_cons,Std.ExtTreeMap.getElem?_insert,← h.waiting]
        by_cases hi : id=i
        · have hnone := (hc s).2.1
          subst hi
          simp [hnone,eq_comm]
        · simp [hi,Ne.symm hi]
      · intro i n
        rw [ht,Multiset.mem_cons,h.waiting]
        simp
    · rw [Side.forall_iff s,hs,ho,Side.other_other,hs]
      refine ⟨fun f hf => ?_,by simpa using h.unsent s.other⟩
      rcases List.mem_append.1 hf with hf | hf
      · exact h.unsent s f hf
      · rw [List.mem_singleton.1 hf]
        exact ⟨⟨_,rfl⟩,(hc s.other).1⟩
    · rw [Side.forall_iff s,hs,ho]
      exact ⟨h.serving s,h.serving s.other⟩
    · rw [Side.forall_iff s,hs,ho]
      exact ⟨h.inbox s,h.inbox s.other⟩
    · intro t
      rw [ht,Multiset.mem_cons,hrecent]
      rintro (rfl | ht')
      · exact (hc s).1
      · exact h.unnoted t ht'
    · rw [Side.forall_iff s,hs,ho]
      exact ⟨h.handler s,h.handler s.other⟩
    · rw [hup',hup]
      intro hd
      cases hd

@[simp] theorem deliver_self (l : Link) (s : Side) (e : Endpoint) (f : Envelope) :
    ((l.set s e).deliver s.other f).ends s=e := by simp [deliver,set]

@[simp] theorem deliver_other (l : Link) (s : Side) (e : Endpoint) (f : Envelope) :
    ((l.set s e).deliver s.other f).ends s.other=
      { l.ends s.other with inbox := (l.ends s.other).inbox++[f] } := by simp [deliver,set]

@[simp] theorem deliver_up (l : Link) (s : Side) (f : Envelope) : (l.deliver s f).up=l.up := rfl

/-- A frame leaves one end, and with the same token arrives at the other. -/
theorem deliver_tokens {e : Endpoint} {f g : Envelope} (hg : g.token=f.token)
    (he : (l.ends s).tokens=f.token::ₘe.tokens) : ((l.set s e).deliver s.other g).tokens=l.tokens := by
  rw [tokens_eq _ s,tokens_eq l s,he]
  simp only [deliver_self,deliver_other,Endpoint.tokens,← Multiset.coe_add,Multiset.map_add,
    ← Multiset.singleton_add,Multiset.coe_singleton,Multiset.map_singleton,hg]
  abel

/-- Frames that move without a new id leave every call matched, if what arrives is fresh there. -/
theorem Matched.deliver (h : l.Matched) {e : Endpoint} {f g : Envelope} (hg : g.token=f.token)
    (he : (l.ends s).tokens=f.token::ₘe.tokens) (hpending : e.pending=(l.ends s).pending)
    (hrecent : e.recent=(l.ends s).recent) (hhandler : e.handler=(l.ends s).handler)
    (hunsent : ∀ k ∈ e.unsent,k ∈ (l.ends s).unsent) (hinbox : ∀ k ∈ e.inbox,k ∈ (l.ends s).inbox)
    (hserving : ∀ k ∈ e.serving,k ∈ (l.ends s).serving)
    (hrole : (∃ n,g.role=.request ⟨s,n⟩) ∨ ∃ n,g.role=.reply ⟨s.other,n⟩)
    (hfresh : g.message.requestId ∉ (l.ends s.other).recent) :
    ((l.set s e).deliver s.other g).Matched := by
  have ht := deliver_tokens hg he
  have hr : ∀ t,(((l.set s e).deliver s.other g).ends t).recent=(l.ends t).recent := by
    rw [Side.forall_iff s]
    simp [hrecent]
  have hp : ∀ t,(((l.set s e).deliver s.other g).ends t).pending=(l.ends t).pending := by
    rw [Side.forall_iff s]
    simp [hpending]
  refine ⟨?_,?_,?_,?_,?_,?_,?_,?_⟩
  · rw [ht]
    exact h.unique
  · intro t id n
    rw [hp,ht]
    exact h.waiting t id n
  · rw [Side.forall_iff s]
    simp only [hr,deliver_self,deliver_other]
    exact ⟨fun k hk => h.unsent s k (hunsent k hk),h.unsent s.other⟩
  · rw [Side.forall_iff s]
    simp only [deliver_self,deliver_other]
    exact ⟨fun k hk => h.serving s k (hserving k hk),h.serving s.other⟩
  · rw [Side.forall_iff s]
    simp only [deliver_self,deliver_other,Side.other_other,hrecent]
    refine ⟨fun k hk => h.inbox s k (hinbox k hk),fun k hk => ?_⟩
    rcases List.mem_append.1 hk with hk | hk
    · simpa using h.inbox s.other k hk
    · rw [List.mem_singleton.1 hk]
      exact ⟨hrole,hfresh⟩
  · rw [ht]
    intro t ht'
    rw [hr]
    exact h.unnoted t ht'
  · rw [Side.forall_iff s]
    simp [hhandler,h.handler]
  · rw [ht]
    exact h.down

/-- A frame taken out of an end, with nothing else gone. -/
theorem tokens_of_take {e : Endpoint} {f : Envelope} (he : (l.ends s).tokens=f.token::ₘe.tokens) :
    l.tokens=f.token::ₘ(l.set s e).tokens := by
  rw [tokens_eq _ s,tokens_eq (l.set s e) s,he,set_self,set_other,Multiset.cons_add]

/-- A call is over: its frame is gone and nobody waits for its id. -/
theorem Matched.settle (h : l.Matched) {e : Endpoint} {f : Envelope}
    (he : (l.ends s).tokens=f.token::ₘe.tokens) (hside : f.role.call.side=s)
    (hpending : e.pending=(l.ends s).pending.erase f.message.requestId)
    (hrecent : ∀ x ∈ e.recent,x ∈ (l.ends s).recent ∨ x=f.message.requestId)
    (hhandler : e.handler=(l.ends s).handler)
    (hunsent : ∀ k ∈ e.unsent,k ∈ (l.ends s).unsent) (hinbox : ∀ k ∈ e.inbox,k ∈ (l.ends s).inbox)
    (hserving : ∀ k ∈ e.serving,k ∈ (l.ends s).serving) : (l.set s e).Matched := by
  have ht := tokens_of_take he
  have hu := h.unique
  rw [ht,Multiset.map_cons,Multiset.nodup_cons] at hu
  -- the id of the frame is on no other token
  have hgone : ∀ t ∈ (l.set s e).tokens,t.2 ≠ f.message.requestId := by
    intro t ht' hid
    refine hu.1 (Multiset.mem_map.2 ⟨t,ht',hid⟩)
  have hin (k : Envelope) (hk : k ∈ e.unsent++e.inbox++e.serving.toList) :
      k.message.requestId ≠ f.message.requestId :=
    hgone k.token (mem_tokens (s := s) (by simpa using hk))
  have hin' (k : Envelope) (hk : k ∈ (l.ends s.other).unsent++(l.ends s.other).inbox++
      (l.ends s.other).serving.toList) : k.message.requestId ≠ f.message.requestId :=
    hgone k.token (mem_tokens (s := s.other) (by simpa using hk))
  refine ⟨hu.2,?_,?_,?_,?_,?_,?_,?_⟩
  · rw [Side.forall_iff s]
    simp only [set_self,set_other]
    constructor
    · intro id n
      rw [hpending,Std.ExtTreeMap.getElem?_erase]
      by_cases hid : f.message.requestId=id
      · have hno : (⟨s,n⟩,id) ∉ (l.set s e).tokens := fun hm => hgone _ hm hid.symm
        simp [hid,hno]
      · rw [if_neg (by simpa using hid),h.waiting,ht,Multiset.mem_cons]
        refine or_iff_right fun hc => hid ?_
        exact (congrArg Prod.snd hc).symm
    · intro id n
      rw [h.waiting,ht,Multiset.mem_cons]
      refine or_iff_right fun hc => ?_
      have hs : s.other=f.role.call.side := congrArg (fun t => t.1.side) hc
      rw [hside] at hs
      exact Side.other_ne s hs
  · rw [Side.forall_iff s]
    simp only [set_self,set_other,Side.other_other]
    refine ⟨fun k hk => h.unsent s k (hunsent k hk),fun k hk => ?_⟩
    obtain ⟨hn,hr⟩ := h.unsent s.other k hk
    refine ⟨hn,fun hc => ?_⟩
    rcases hrecent _ hc with hc | hc
    · rw [Side.other_other] at hr
      exact hr hc
    · exact hin' k (by simp [hk]) hc
  · rw [Side.forall_iff s]
    simp only [set_self,set_other]
    exact ⟨fun k hk => h.serving s k (hserving k hk),h.serving s.other⟩
  · rw [Side.forall_iff s]
    simp only [set_self,set_other]
    refine ⟨fun k hk => ?_,h.inbox s.other⟩
    obtain ⟨hn,hr⟩ := h.inbox s k (hinbox k hk)
    refine ⟨hn,fun hc => ?_⟩
    rcases hrecent _ hc with hc | hc
    · exact hr hc
    · exact hin k (by simp [hk]) hc
  · intro t ht'
    have hold := h.unnoted t (ht ▸ Multiset.mem_cons_of_mem ht')
    by_cases hs : t.1.side=s
    · rw [hs] at hold ⊢
      rw [set_self]
      intro hc
      rcases hrecent _ hc with hc | hc
      · exact hold hc
      · exact hgone t ht' hc
    · have hs' : t.1.side=s.other := by cases h' : t.1.side <;> cases s <;> simp_all [Side.other]
      rw [hs'] at hold ⊢
      rwa [set_other]
  · rw [Side.forall_iff s]
    simp [hhandler,h.handler]
  · intro hd
    have h₀ := h.down hd
    rw [ht] at h₀
    exact absurd h₀ (Multiset.cons_ne_zero)

theorem take_unsent {k : Nat} {f : Envelope} (h : (l.ends s).unsent[k]?=some f) :
    (l.ends s).tokens=f.token::ₘ
      Endpoint.tokens { l.ends s with unsent := (l.ends s).unsent.eraseIdx k } := by
  obtain ⟨hk,hf⟩ := List.getElem?_eq_some_iff.1 h
  have hperm : ((l.ends s).unsent : Multiset Envelope)=f::ₘ(l.ends s).unsent.eraseIdx k := by
    rw [Multiset.cons_coe,Multiset.coe_eq_coe,← hf]
    exact (List.getElem_cons_eraseIdx_perm hk).symm
  simp only [Endpoint.tokens,hperm,Multiset.map_add,Multiset.map_cons,Multiset.cons_add]

theorem take_inbox {f : Envelope} {rest : List Envelope} (h : (l.ends s).inbox=f::rest) :
    (l.ends s).tokens=f.token::ₘEndpoint.tokens { l.ends s with inbox := rest } := by
  simp only [Endpoint.tokens,h,← Multiset.cons_coe,Multiset.map_add,Multiset.map_cons,
    Multiset.cons_add,Multiset.add_cons]

theorem take_serving {f : Envelope} (h : (l.ends s).serving=some f) :
    (l.ends s).tokens=f.token::ₘEndpoint.tokens { l.ends s with serving := none } := by
  simp only [Endpoint.tokens,h,Option.toList_some,Option.toList_none,Multiset.coe_singleton,
    Multiset.map_add,Multiset.map_singleton,Multiset.coe_nil,add_zero]
  rw [add_comm,Multiset.singleton_add]

theorem Matched.send (h : l.Matched) (k : Nat) : (l.send s k).Matched := by
  simp only [Link.send]
  split
  · exact h
  · next f hf =>
    have hmem := List.mem_of_getElem? hf
    obtain ⟨⟨n,hrole⟩,hfresh⟩ := h.unsent s f hmem
    have hsub : ∀ g ∈ (l.ends s).unsent.eraseIdx k,g ∈ (l.ends s).unsent :=
      fun g hg => List.mem_of_mem_eraseIdx hg
    split_ifs
    · exact h.deliver rfl (take_unsent hf) rfl rfl rfl hsub (fun _ hg => hg) (fun _ hg => hg)
        (.inl ⟨n,hrole⟩) hfresh
    · exact h.settle (take_unsent hf) (by rw [hrole]; rfl) rfl (fun _ hx => .inl hx) rfl hsub
        (fun _ hg => hg) fun _ hg => hg

theorem Matched.lose (h : l.Matched) : l.lose.Matched := by
  have ht : l.lose.tokens=0 := by simp [Link.lose,tokens,Endpoint.tokens]
  refine ⟨by simp [ht],?_,?_,?_,?_,by simp [ht],h.handler,fun _ => ht⟩
  · intro s id n
    have hp : (l.lose.ends s).pending=∅ := rfl
    simp [hp,ht]
  all_goals
    intro s f hf
    simp [Link.lose] at hf

theorem Matched.up_of_serving (h : l.Matched) {f : Envelope} (hf : (l.ends s).serving=some f) :
    l.up=true := by
  cases hup : l.up with
  | true => rfl
  | false =>
    have h₀ := h.down hup
    rw [tokens_eq l s,take_serving hf,Multiset.cons_add] at h₀
    exact absurd h₀ Multiset.cons_ne_zero

theorem Matched.answer (h : l.Matched) (reply : Result Message)
    (hc : l.Clear (.answer s reply)) : (l.answer s reply).Matched := by
  simp only [Link.answer]
  split
  · exact h
  · next f hf =>
    obtain ⟨n,hrole⟩ := h.serving s f hf
    have hmem : f.token ∈ l.tokens := mem_tokens (s := s) (by simp [hf])
    have hfresh := h.unnoted _ hmem
    have htok : Envelope.token ⟨responseTo f reply,answerRole f.role⟩=f.token := by
      cases reply <;> simp [Envelope.token,responseTo,answerRole,hrole,Role.call]
    have hid : (responseTo f reply).requestId=f.message.requestId := congrArg Prod.snd htok
    rw [if_pos (by simpa [transmits,h.up_of_serving hf] using hc f hf)]
    refine h.deliver htok (take_serving hf) rfl rfl rfl (fun _ hg => hg) (fun _ hg => hg) (by simp)
      (.inr ⟨n,by simp [answerRole,hrole]⟩) ?_
    rw [hid]
    simpa [Envelope.token,hrole,Role.call] using hfresh

/-- While every call is matched, the reader finds nothing to do, breaks the connection over a frame
too large for it, hands a request to the handler, or gives a reply to the call it belongs to. -/
theorem pump_cases (h : l.Matched) : l.pump s=l ∨ l.pump s=l.lose ∨
    ∃ f rest recent,(l.ends s).serving=none ∧ (l.ends s).inbox=f::rest ∧
      (∀ x ∈ recent,x ∈ (l.ends s).recent ∨ x=f.message.requestId) ∧
      ((∃ n,f.role=.request ⟨s.other,n⟩) ∧ l.pump s=l.set s { l.ends s with
          inbox := rest,recent,serving := some f,handled := f::(l.ends s).handled } ∨
        ∃ n,f.role=.reply ⟨s,n⟩ ∧ l.pump s=l.set s { l.ends s with
          inbox := rest,recent,pending := (l.ends s).pending.erase f.message.requestId
          outcomes := (n,.returned f)::(l.ends s).outcomes }) := by
  simp only [pump]
  split
  case h_2 => exact .inl rfl
  case h_1 f rest hserving hinbox =>
    have hin : f ∈ (l.ends s).inbox := by simp [hinbox]
    have htok : f.token ∈ l.tokens := mem_tokens (s := s) (by simp [hin])
    obtain ⟨hrole,hfresh⟩ := h.inbox s f hin
    by_cases hlarge : (l.ends s).options.maxFramePayload < f.message.payload.length
    · exact .inr (.inl (if_pos hlarge))
    rw [if_neg hlarge]
    refine .inr (.inr ?_)
    obtain ⟨recent,hnote,hrecent⟩ : ∃ recent,(if f.message.type=.hello then some (l.ends s).recent
        else noteRequest (l.ends s).options (l.ends s).recent f.message.requestId)=some recent ∧
        ∀ x ∈ recent,x ∈ (l.ends s).recent ∨ x=f.message.requestId := by
      split_ifs
      · exact ⟨_,rfl,fun x hx => .inl hx⟩
      · exact noteRequest_fresh hfresh
    refine ⟨f,rest,recent,hserving,hinbox,hrecent,?_⟩
    simp only [hnote]
    rcases hrole with ⟨n,hrole⟩ | ⟨n,hrole⟩
    · -- the id is that of a call of the other end, so no call waits for it here
      have hnone : (l.ends s).pending[f.message.requestId]?=none := by
        rw [Option.eq_none_iff_forall_ne_some]
        intro m hm
        have he := h.eq_of_id ((h.waiting s _ m).1 hm) htok rfl
        have hs : s=f.role.call.side := congrArg (fun t => t.1.side) he
        rw [hrole] at hs
        exact Side.ne_other s hs
      refine .inl ⟨⟨n,hrole⟩,?_⟩
      simp only [hnone,h.handler s,if_true]
    · have hsome : (l.ends s).pending[f.message.requestId]?=some n := by
        rw [h.waiting]
        simpa [Envelope.token,hrole,Role.call] using htok
      refine .inr ⟨n,hrole,?_⟩
      simp only [hsome]

theorem handle_tokens {f : Envelope} {rest : List Envelope} (recent : List UInt64)
    (hserving : (l.ends s).serving=none) (hinbox : (l.ends s).inbox=f::rest) :
    (l.set s { l.ends s with
      inbox := rest,recent,serving := some f,handled := f::(l.ends s).handled }).tokens=l.tokens := by
  rw [tokens_eq _ s,tokens_eq l s,take_inbox hinbox]
  simp only [set_self,set_other,Endpoint.tokens,hserving,Option.toList_some,Option.toList_none,
    Multiset.coe_singleton,Multiset.map_add,Multiset.map_singleton,Multiset.coe_nil,add_zero,
    ← Multiset.singleton_add]
  abel

/-- A request goes from the inbox to the handler; its id is remembered from now on. -/
theorem Matched.handle (h : l.Matched) {f : Envelope} {rest : List Envelope} {recent : List UInt64}
    (hserving : (l.ends s).serving=none) (hinbox : (l.ends s).inbox=f::rest)
    (hrecent : ∀ x ∈ recent,x ∈ (l.ends s).recent ∨ x=f.message.requestId) {n : Nat}
    (hrole : f.role=.request ⟨s.other,n⟩) : (l.set s { l.ends s with
      inbox := rest,recent,serving := some f,handled := f::(l.ends s).handled }).Matched := by
  have htok : f.token ∈ l.tokens := mem_tokens (s := s) (by simp [hinbox])
  have ht := handle_tokens recent hserving hinbox
  have hu := h.unique
  rw [tokens_eq l s,take_inbox hinbox,Multiset.cons_add,Multiset.map_cons,Multiset.nodup_cons] at hu
  -- the id of the request is on no other frame
  have hother (k : Envelope) (hk : k ∈ rest ∨ k ∈ (l.ends s.other).unsent) :
      k.message.requestId ≠ f.message.requestId := by
    intro hid
    refine hu.1 (Multiset.mem_map.2 ⟨k.token,?_,hid⟩)
    rw [Multiset.mem_add]
    rcases hk with hk | hk
    · exact .inl (Multiset.mem_map_of_mem _ (by simp [hk]))
    · exact .inr (Multiset.mem_map_of_mem _ (by simp [hk]))
  refine ⟨ht ▸ h.unique,?_,?_,?_,?_,?_,?_,?_⟩
  · rw [Side.forall_iff s,ht]
    simp only [set_self,set_other]
    exact ⟨h.waiting s,h.waiting s.other⟩
  · rw [Side.forall_iff s]
    simp only [set_self,set_other,Side.other_other]
    refine ⟨h.unsent s,fun k hk => ?_⟩
    obtain ⟨hn,hr⟩ := h.unsent s.other k hk
    refine ⟨hn,fun hc => ?_⟩
    rcases hrecent _ hc with hc | hc
    · rw [Side.other_other] at hr
      exact hr hc
    · exact hother k (.inr hk) hc
  · rw [Side.forall_iff s]
    simp only [set_self,set_other]
    refine ⟨fun k hk => ?_,h.serving s.other⟩
    cases hk
    exact ⟨n,hrole⟩
  · rw [Side.forall_iff s]
    simp only [set_self,set_other]
    refine ⟨fun k hk => ?_,h.inbox s.other⟩
    obtain ⟨hn,hr⟩ := h.inbox s k (by simp [hinbox,hk])
    refine ⟨hn,fun hc => ?_⟩
    rcases hrecent _ hc with hc | hc
    · exact hr hc
    · exact hother k (.inl hk) hc
  · rw [ht]
    intro t ht'
    have hold := h.unnoted t ht'
    by_cases hs : t.1.side=s
    · rw [hs] at hold ⊢
      rw [set_self]
      intro hc
      rcases hrecent _ hc with hc | hc
      · exact hold hc
      · have he := h.eq_of_id ht' htok hc
        rw [he] at hs
        simp [Envelope.token,hrole,Role.call] at hs
    · have hs' : t.1.side=s.other := by cases h' : t.1.side <;> cases s <;> simp_all [Side.other]
      rw [hs'] at hold ⊢
      rwa [set_other]
  · rw [Side.forall_iff s]
    simp [h.handler]
  · rw [ht]
    exact h.down

theorem Matched.pump (h : l.Matched) : (l.pump s).Matched := by
  rcases pump_cases (s := s) h with hp | hp | ⟨f,rest,recent,hserving,hinbox,hrecent,hp⟩
  · rwa [hp]
  · rw [hp]
    exact h.lose
  · rcases hp with ⟨⟨n,hrole⟩,hp⟩ | ⟨n,hrole,hp⟩
    · rw [hp]
      exact h.handle hserving hinbox hrecent hrole
    · rw [hp]
      refine h.settle (take_inbox hinbox) (by rw [hrole]; rfl) rfl hrecent rfl (fun _ hk => hk) ?_
        fun _ hk => hk
      intro k hk
      rw [hinbox]
      exact List.mem_cons_of_mem _ hk

theorem Matched.apply (h : l.Matched) {e : Event} (hc : l.Clear e) : (l.apply e).Matched := by
  cases e with
  | call s m => exact h.call m hc
  | send s k => exact h.send k
  | pump s => exact h.pump
  | answer s reply => exact h.answer reply hc
  | lose => exact h.lose

theorem Sound.call (h : l.Sound) (m : Message) : (l.call s m).Sound := by
  cases hup : l.up with
  | false =>
    have hl : l.call s m=l := by simp [Link.call,hup]
    rwa [hl]
  | true =>
    have ht := call_tokens (l := l) (s := s) m hup
    have hs : ((l.call s m).ends s)={ l.ends s with
        counter := ((l.call s m).ends s).counter,pending := ((l.call s m).ends s).pending
        unsent := ((l.call s m).ends s).unsent,calls := (l.ends s).calls+1 } := by
      simp [Link.call,hup]
    have ho : (l.call s m).ends s.other=l.ends s.other := by simp [Link.call,hup]
    have hkept : ∀ t n,n<(l.ends t).calls →
        (∃ id,(⟨t,n⟩,id) ∈ (l.call s m).tokens) ∨ ∃ o,(n,o) ∈ (l.ends t).outcomes := by
      intro t n hn
      refine (h.kept t n hn).imp_left fun ⟨id,hid⟩ => ⟨id,?_⟩
      rw [ht]
      exact Multiset.mem_cons_of_mem hid
    refine ⟨?_,?_,?_,?_,?_⟩ <;> rw [Side.forall_iff s,ho,hs]
    · exact ⟨h.returned s,h.returned s.other⟩
    · exact ⟨h.turnedAway s,h.turnedAway s.other⟩
    · exact ⟨h.handled s,h.handled s.other⟩
    · exact ⟨h.dropped s,h.dropped s.other⟩
    · refine ⟨fun n hn => ?_,hkept s.other⟩
      rcases Nat.lt_succ_iff_lt_or_eq.1 hn with hn | rfl
      · exact hkept s n hn
      · exact .inl ⟨_,ht ▸ Multiset.mem_cons_self _ _⟩

/-- A step that only moves frames between the ends records nothing. -/
theorem Sound.deliver (h : l.Sound) {e : Endpoint} {f g : Envelope} (hg : g.token=f.token)
    (he : (l.ends s).tokens=f.token::ₘe.tokens) (houtcomes : e.outcomes=(l.ends s).outcomes)
    (hturned : e.turnedAway=(l.ends s).turnedAway) (hhandled : e.handled=(l.ends s).handled)
    (hdropped : e.dropped=(l.ends s).dropped) (hcalls : e.calls=(l.ends s).calls) :
    ((l.set s e).deliver s.other g).Sound := by
  have ht := deliver_tokens hg he
  refine ⟨?_,?_,?_,?_,?_⟩ <;> rw [Side.forall_iff s,deliver_self,deliver_other]
  · rw [houtcomes]
    exact ⟨h.returned s,h.returned s.other⟩
  · rw [hturned]
    exact ⟨h.turnedAway s,h.turnedAway s.other⟩
  · rw [hhandled]
    exact ⟨h.handled s,h.handled s.other⟩
  · rw [hdropped]
    exact ⟨h.dropped s,h.dropped s.other⟩
  · rw [hcalls,houtcomes,ht]
    exact ⟨h.kept s,h.kept s.other⟩

/-- The call whose frame goes away has an outcome, which is its reply if it is a message. -/
theorem Sound.settle (h : l.Sound) {e : Endpoint} {f : Envelope} {n : Nat} {o : Outcome}
    (he : (l.ends s).tokens=f.token::ₘe.tokens) (hcall : f.role.call=⟨s,n⟩)
    (ho : ∀ g,o=.returned g → g.role=.reply ⟨s,n⟩)
    (houtcomes : e.outcomes=(n,o)::(l.ends s).outcomes)
    (hturned : e.turnedAway=(l.ends s).turnedAway) (hhandled : e.handled=(l.ends s).handled)
    (hdropped : e.dropped=(l.ends s).dropped) (hcalls : e.calls=(l.ends s).calls) :
    (l.set s e).Sound := by
  have ht := tokens_of_take he
  refine ⟨?_,?_,?_,?_,?_⟩ <;> rw [Side.forall_iff s,set_self,set_other]
  · refine ⟨fun m g hg => ?_,h.returned s.other⟩
    rw [houtcomes] at hg
    rcases List.mem_cons.1 hg with hg | hg
    · cases hg
      exact ho g rfl
    · exact h.returned s m g hg
  · rw [hturned]
    exact ⟨h.turnedAway s,h.turnedAway s.other⟩
  · rw [hhandled]
    exact ⟨h.handled s,h.handled s.other⟩
  · rw [hdropped]
    exact ⟨h.dropped s,h.dropped s.other⟩
  · rw [hcalls,houtcomes]
    constructor
    · intro m hm
      rcases h.kept s m hm with ⟨id,hid⟩ | ⟨p,hp⟩
      · rw [ht,Multiset.mem_cons] at hid
        rcases hid with hid | hid
        · have hm' : f.role.call=⟨s,m⟩ := (congrArg Prod.fst hid).symm
          rw [hcall] at hm'
          cases hm'
          exact .inr ⟨o,by simp⟩
        · exact .inl ⟨id,hid⟩
      · exact .inr ⟨p,by simp [hp]⟩
    · intro m hm
      refine (h.kept s.other m hm).imp_left fun ⟨id,hid⟩ => ⟨id,?_⟩
      rw [ht,Multiset.mem_cons] at hid
      refine hid.resolve_left fun hc => ?_
      have hs : s.other=f.role.call.side := congrArg (fun t => t.1.side) hc
      rw [hcall] at hs
      exact Side.other_ne s hs

theorem Sound.send (h : l.Sound) (hm : l.Matched) (k : Nat) : (l.send s k).Sound := by
  simp only [Link.send]
  split
  · exact h
  · next f hf =>
    obtain ⟨⟨n,hrole⟩,_⟩ := hm.unsent s f (List.mem_of_getElem? hf)
    split_ifs
    · exact h.deliver rfl (take_unsent hf) rfl rfl rfl rfl rfl
    · exact h.settle (n := n) (o := .refused) (take_unsent hf) (by rw [hrole]; rfl) nofun
        (by rw [hrole]; rfl) rfl rfl rfl rfl

theorem Sound.lose (h : l.Sound) (hm : l.Matched) : l.lose.Sound := by
  refine ⟨?_,h.turnedAway,h.handled,h.dropped,?_⟩
  · intro s n f hf
    rcases List.mem_append.1 hf with hf | hf
    · simp at hf
    · exact h.returned s n f hf
  · intro s n hn
    refine .inr ?_
    rcases h.kept s n hn with ⟨id,hid⟩ | ⟨o,ho⟩
    · have hp := Std.ExtTreeMap.mem_toList_iff_getElem?_eq_some.2 ((hm.waiting s id n).2 hid)
      exact ⟨.refused,List.mem_append_left _ (List.mem_map.2 ⟨_,hp,rfl⟩)⟩
    · exact ⟨o,List.mem_append_right _ ho⟩

theorem Sound.pump (h : l.Sound) (hm : l.Matched) : (l.pump s).Sound := by
  rcases pump_cases (s := s) hm with hp | hp | ⟨f,rest,recent,hserving,hinbox,hrecent,hp⟩
  · rwa [hp]
  · rw [hp]
    exact h.lose hm
  · rcases hp with ⟨⟨n,hrole⟩,hp⟩ | ⟨n,hrole,hp⟩
    · have ht := handle_tokens recent hserving hinbox
      rw [hp]
      refine ⟨?_,?_,?_,?_,?_⟩ <;> rw [Side.forall_iff s,set_self,set_other]
      · exact ⟨h.returned s,h.returned s.other⟩
      · exact ⟨h.turnedAway s,h.turnedAway s.other⟩
      · refine ⟨fun g hg => ?_,h.handled s.other⟩
        rcases List.mem_cons.1 hg with rfl | hg
        · exact ⟨n,hrole⟩
        · exact h.handled s g hg
      · exact ⟨h.dropped s,h.dropped s.other⟩
      · rw [ht]
        exact ⟨h.kept s,h.kept s.other⟩
    · rw [hp]
      exact h.settle (n := n) (take_inbox hinbox) (by rw [hrole]; rfl)
        (fun g hg => by cases hg; exact hrole) rfl rfl rfl rfl rfl

theorem Sound.answer (h : l.Sound) (hm : l.Matched) (reply : Result Message)
    (hc : l.Clear (.answer s reply)) : (l.answer s reply).Sound := by
  simp only [Link.answer]
  split
  · exact h
  · next f hf =>
    obtain ⟨n,hrole⟩ := hm.serving s f hf
    have htok : Envelope.token ⟨responseTo f reply,answerRole f.role⟩=f.token := by
      cases reply <;> simp [Envelope.token,responseTo,answerRole,hrole,Role.call]
    rw [if_pos (by simpa [transmits,hm.up_of_serving hf] using hc f hf)]
    exact h.deliver htok (take_serving hf) rfl rfl rfl rfl rfl

theorem Sound.apply (h : l.Sound) (hm : l.Matched) {e : Event} (hc : l.Clear e) :
    (l.apply e).Sound := by
  cases e with
  | call s m => exact h.call m
  | send s k => exact h.send hm k
  | pump s => exact h.pump hm
  | answer s reply => exact h.answer hm reply hc
  | lose => exact h.lose hm

end Steps

/-- In every interleaving in which each request gets a free id and each reply fits into a frame, every
call returns its own reply and nothing is dropped or taken for a replay. -/
theorem sound_of_clear (l : Link) (es : List Event) (hl : l.Fresh) (hc : l.ClearRun es) :
    (l.run es).Sound := by
  have h : ∀ (es : List Event) (l : Link),l.Matched → l.Sound → l.ClearRun es → (l.run es).Sound := by
    intro es
    induction es with
    | nil => exact fun l _ hs _ => hs
    | cons e es ih => exact fun l hm hs hc => ih _ (hm.apply hc.1) (hs.apply hm hc.1) hc.2
  exact h es l hl.matched hl.sound hc

end Link

namespace Sample

/-- A request, its reply, and a request of the other end with an id of its own. -/
def turns : List Link.Event :=
  [.call .near { type := .ping },.send .near 0,.pump .far,.answer .far (.ok { type := .pong }),
    .pump .near,.call .far { type := .ping,requestId := 2 },.send .far 0,.pump .near,
    .answer .near (.ok { type := .pong }),.pump .far]

/-- Both ends ask at the same time, each under its first id. -/
def crossed : List Link.Event :=
  [.call .near { type := .ping },.call .far { type := .ping },.send .near 0,.send .far 0,
    .pump .near,.pump .far]

/-- The other end asks under its first id once the first exchange is over. -/
def late : List Link.Event :=
  [.call .near { type := .ping },.send .near 0,.pump .far,.answer .far (.ok { type := .pong }),
    .pump .near,.call .far { type := .ping },.send .far 0,.pump .near]

end Sample

namespace Link

theorem fresh_default : ({} : Link).Fresh := ⟨fun _ => rfl,by simp,by simp⟩

theorem sound_of_turns : ({} : Link).ClearRun Sample.turns ∧ (({} : Link).run Sample.turns).Sound := by
  have hc : ({} : Link).ClearRun Sample.turns := by decide +kernel
  exact ⟨hc,sound_of_clear _ _ fresh_default hc⟩

/-- Each end takes the request of the other for its reply; later, a request is turned away. -/
theorem not_sound_of_crossed : ({} : Link).Fresh ∧
    ¬(({} : Link).run Sample.crossed).Sound ∧ ¬(({} : Link).run Sample.late).Sound := by
  have hmixed : (0,.returned ⟨{ type := .ping,requestId := 1 },.request ⟨.far,0⟩⟩) ∈
      ((({} : Link).run Sample.crossed).ends .near).outcomes := by decide +kernel
  have hturned : ((({} : Link).run Sample.late).ends .near).turnedAway ≠ [] := by decide +kernel
  refine ⟨fresh_default,fun h => ?_,fun h => hturned (h.turnedAway .near)⟩
  have hrole := h.returned .near 0 _ hmixed
  cases hrole

end Link

end CompilerFabric
