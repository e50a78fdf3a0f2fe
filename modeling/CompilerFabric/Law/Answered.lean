import CompilerFabric.Law.Coordinated
import CompilerFabric.Law.Refused

namespace CompilerFabric

open Base Base.Action

namespace Payload

variable (e : Status)

instance : (phaseState e).Faithful := Format.Faithful.cast ..
instance : (failureClass e).Faithful := Format.Faithful.cast ..
instance : (authorityVerdict e).Faithful := Format.Faithful.view ..

theorem phaseReport_length (report : PhaseRunReport) (times : PhaseTimes) :
    (phaseReport.write (report,times)).length=89+report.detail.length+16*report.outputs.length := by
  simp [phaseReport,phaseState,failureClass,statusCode,authorityVerdict]
  omega

end Payload

/-- A report that `decode_phase_report` takes. -/
def PhaseRunReport.Transportable (report : PhaseRunReport) : Prop :=
  report.detail.length ≤ 2^16 ∧ report.outputs.length ≤ 256

/-- What is transported of a report: all but the retry decision. -/
def PhaseRunReport.transported (report : PhaseRunReport) : PhaseRunReport := { report with retry := {} }

theorem phaseReport_good (report : PhaseRunReport) (times : PhaseTimes) :
    Payload.phaseReport.good (report.transported,times) ↔ report.Transportable := by
  simp [Payload.phaseReport,Payload.phaseState,Payload.failureClass,Payload.statusCode,
    Payload.authorityVerdict,PhaseRunReport.transported,PhaseRunReport.Transportable]

/-- The report of a phase comes back with what is transported of it, or is refused. -/
theorem phaseReport_recovered (report : PhaseRunReport) (times : PhaseTimes)
    (x : PhaseRunReport × PhaseTimes) :
    decodePhaseReport (encodePhaseReport report times)=.ok x ↔
      report.Transportable ∧ x=(report.transported,times) := by
  have hgood := Format.readAll_write Payload.phaseReport
    (protocolMalformed "phase report has trailing bytes") (report.transported,times)
  rw [phaseReport_good] at hgood
  unfold decodePhaseReport encodePhaseReport
  rw [fieldBlob_bind]
  constructor
  · rintro ⟨hl,h⟩
    have hread : x=(report.transported,times) := by
      dsimp only [Payload.phaseReport] at hl h
      exact Format.eq_of_readAll_projected rfl (field_lt hl) h
    subst hread
    exact ⟨hgood.1 h,rfl⟩
  · rintro ⟨ht,rfl⟩
    obtain ⟨hd,ho⟩ := ht
    refine ⟨?_,hgood.2 ⟨hd,ho⟩⟩
    rw [Payload.phaseReport_length]
    simp only [kMaxFieldBytes]
    omega

/-- The status an error reply tells of: a message that one field does not hold is left out. -/
def Status.told (s : Status) : Status :=
  { s with message := if s.message.length ≤ kMaxFieldBytes then s.message else [] }

/-- What the records of an error reply add up to is read from it. -/
theorem decodeError_payload {calls : List FieldCall} (hasc : calls.Pairwise (·.field.id<·.field.id))
    (hb : ∀ c ∈ calls,c.field.value.length ≤ kMaxFieldBytes) {out : StatusCode × Bytes}
    (hfold : (calls.map FieldCall.field).foldlM (fun e f => readError e
      { payload := [],currentId := f.id,currentValue := f.value }) (.internalError,[])=.ok out) :
    decodeError (FieldCall.payload calls)=.ok out := by
  obtain ⟨last,hl,hfin⟩ := FieldReader.each_fields readError _ (fun _ _ => rfl) (Nat.zero_le _)
    (FieldCall.payload_fields calls hasc hb) hfold
  rw [decodeError,hl]
  simp only [bind,Except.bind,hfin]
  rfl

theorem decodeError_encodeError (s : Status) :
    decodeError (encodeError s.code s.message)=.ok (s.told.code,s.told.message) := by
  have hu (v : UInt16) :
      FieldReader.asU16 { payload := [],currentId := 1,currentValue := Base.leBytes 2 v.toNat }=.ok v := by
    simp [FieldReader.asU16,Base.leValue_leBytes 2 _ v.toNat_lt]
  have hcap : 2 ≤ kMaxFieldBytes := by decide
  by_cases h : s.message.length ≤ kMaxFieldBytes
  · have hpayload : encodeError s.code s.message=
        FieldCall.payload [.u16 1 s.code.raw,.text 2 s.message,.text 3 []] := rfl
    rw [hpayload]
    apply decodeError_payload
    · simp [FieldCall.field]
    · simp [FieldCall.field,h,hcap]
    · simp [FieldCall.field,readError,FieldReader.asText,Status.told,h,hu,bind,Except.bind,pure,Except.pure]
  · have hdropped : (({} : FieldWriter).u16 1 s.code.raw).text 2 s.message=
        ({} : FieldWriter).u16 1 s.code.raw := if_pos (Nat.lt_of_not_le h)
    have hpayload : encodeError s.code s.message=
        FieldCall.payload [.u16 1 s.code.raw,.text 3 []] := by
      rw [encodeError,hdropped]
      rfl
    rw [hpayload]
    apply decodeError_payload
    · simp [FieldCall.field]
    · simp [FieldCall.field,hcap]
    · simp [FieldCall.field,readError,Status.told,h,hu,bind,Except.bind,pure,Except.pure]

namespace Coordinator

variable {c : Coordinator} {e : Event} {events : List Event} {peer k : Nat} {request : Message} {t : Turn}
  {p : Peer} {a : Answer} {order : Order} {i : Nat} {sid : CompilerSessionId} {pid : CompilerPhaseId}

/-- The call of the runtime a request about a phase is served by, and the type of the reply. A
`REPORT_OUTPUT` is served by `commit_phase`: it records no output and may commit. -/
def Order.phaseCall : Order → Option (Command × MessageType)
  | .startPhase session phase => some (.runPhase session phase,.phaseStarted)
  | .retryPhase session phase => some (.retryPhase session phase,.phaseStarted)
  | .commitPhase (session,phase,generation,invocation) =>
      some (.commitPhase session phase generation invocation,.phaseCommitted)
  | .reportOutput (session,phase,generation,invocation) =>
      some (.commitPhase session phase generation invocation,.outputReported)
  | _ => none

/-- The call was made when the request came in. -/
def Began (c : Coordinator) (events : List Event) (peer : Nat) (request : Message) (i : Nat)
    (command : Command) : Prop :=
  ∃ n t,events[n]?=some (.receive peer request t) ∧ (c.run (events.take n)).sys.calls.length=i ∧
    (c.run (events.take (n+1))).sys=(c.run (events.take n)).sys.apply (.call command t.world)

theorem Began.snoc {command : Command} (h : Began c events peer request i command) :
    Began c (events++[e]) peer request i command := by
  obtain ⟨n,t,hn,hi,hsys⟩ := h
  have hlt := (List.getElem?_eq_some_iff.1 hn).1
  refine ⟨n,t,?_,?_,?_⟩
  · rw [List.getElem?_append_left hlt]
    exact hn
  · rw [List.take_append_of_le_length hlt.le]
    exact hi
  · rw [List.take_append_of_le_length hlt,List.take_append_of_le_length hlt.le]
    exact hsys

/-- What is known of an answer: it goes back under the id of its request, a request that was not
understood is refused, and one about a phase is answered with what its call returned. -/
structure Answered (c : Coordinator) (events : List Event) (peer : Nat) (a : Answer) : Prop where
  id : a.reply.requestId=a.request.requestId
  refused : ∀ e,Order.read a.request=.error e → a.call=none ∧ a.reply=Worker.failure a.request e
  phase : ∀ order command type,Order.read a.request=.ok order → order.phaseCall=some (command,type) →
    ∃ i result times,a.call=some i ∧ Began c events peer a.request i command ∧
      (c.run events).sys.calls[i]?=some (.ran result) ∧
      a.reply=respond a.request (result.map fun report =>
        { type,payload := encodePhaseReport report times })

/-- What is known of a connection. -/
structure Tracked (c : Coordinator) (events : List Event) (peer : Nat) (p : Peer) : Prop where
  handling : ∀ h,p.handling=some h → ∃ order,Order.read h.request=.ok order ∧
    ∀ command type,order.phaseCall=some (command,type) →
      h.duty=.phase type ∧ Began c events peer h.request h.call command
  answers : ∀ a ∈ p.answers,Answered c events peer a

theorem Answered.snoc {a : Answer} (h : Answered c events peer a) : Answered c (events++[e]) peer a where
  id := h.id
  refused := h.refused
  phase := by
    intro order command type hread hcall
    obtain ⟨i,result,times,ha,hb,hc,hr⟩ := h.phase order command type hread hcall
    refine ⟨i,result,times,ha,hb.snoc,?_,hr⟩
    rw [run_snoc]
    exact (apply_served _ e).ran hc

theorem Tracked.snoc {p : Peer} (h : Tracked c events peer p) : Tracked c (events++[e]) peer p where
  handling := by
    intro k hk
    obtain ⟨order,hread,hcall⟩ := h.handling k hk
    refine ⟨order,hread,fun command type hc => ?_⟩
    obtain ⟨hduty,hb⟩ := hcall command type hc
    exact ⟨hduty,hb.snoc⟩
  answers a ha := (h.answers a ha).snoc

theorem respond_id (request : Message) (reply : Result Message) :
    (respond request reply).requestId=request.requestId := by
  cases reply <;> rfl

/-- What a handler does first: it answers, or it makes the call the request asks for. -/
theorem serve_peers (c : Coordinator) (peer : Nat) (request : Message) (t : Turn) (order : Order) :
    (∃ reply,(c.serve peer request t order).peers=c.peers.modify peer (fun p =>
        { handling := none,answers := ⟨request,none,respond request reply⟩::p.answers }) ∧
      order.phaseCall=none) ∨
    ∃ command duty,c.serve peer request t order=c.call peer request t command duty ∧
      ∀ command' type,order.phaseCall=some (command',type) → command'=command ∧ duty=.phase type := by
  cases order with
  | hello | ping | querySession | sessionList | queryAuthority | queryDiagnostics | snapshot | audit
  | shutdown => exact .inl ⟨_,rfl,rfl⟩
  | createSession wanted =>
    right
    simp only [serve]
    split
    · exact ⟨_,_,rfl,fun _ _ h => by cases h⟩
    · exact ⟨_,_,rfl,fun _ _ h => by cases h⟩
  | startPhase | retryPhase | commitPhase | reportOutput =>
    refine .inr ⟨_,_,rfl,fun _ _ h => ?_⟩
    cases h
    exact ⟨rfl,rfl⟩
  | refreshToolchain | invalidateToolchain | recoverSession | runSession | cancelPhase =>
    exact .inr ⟨_,_,rfl,fun _ _ h => by cases h⟩

/-- What a handler does once its call has ended: it answers, unless it was behind a discovery. -/
theorem proceed_peers (c : Coordinator) (peer : Nat) (t : Turn) (h : Handling) (call : Call) :
    c.proceed peer t h h.duty call=c ∨
    (∃ reply,c.proceed peer t h h.duty call=c.answer peer h.request (some h.call) reply ∧
      ∀ type,h.duty=.phase type → ∃ result,call=.ran result ∧
        reply=result.map fun report => { type,payload := encodePhaseReport report t.times }) ∨
    ∃ wanted command duty,h.duty=.discovery wanted ∧
      c.proceed peer t h h.duty call=c.call peer h.request t command duty := by
  cases hduty : h.duty with
  | discovery wanted =>
    cases call with
    | ended result =>
      cases result with
      | ok u => exact .inr (.inr ⟨wanted,_,_,rfl,rfl⟩)
      | error e => exact .inr (.inl ⟨_,rfl,fun _ hd => by cases hd⟩)
    | _ => exact .inl rfl
  | phase type =>
    cases call with
    | ran result =>
      refine .inr (.inl ⟨_,rfl,fun type hd => ?_⟩)
      cases hd
      exact ⟨result,rfl,rfl⟩
    | _ => exact .inl rfl
  | creation =>
    cases call with
    | created result => exact .inr (.inl ⟨_,rfl,fun _ hd => by cases hd⟩)
    | _ => exact .inl rfl
  | recovery =>
    cases call with
    | recovered result => exact .inr (.inl ⟨_,rfl,fun _ hd => by cases hd⟩)
    | _ => exact .inl rfl
  | session id =>
    cases call with
    | drove result => exact .inr (.inl ⟨_,rfl,fun _ hd => by cases hd⟩)
    | _ => exact .inl rfl
  | toolchain | cancellation =>
    cases call with
    | ended result => exact .inr (.inl ⟨_,rfl,fun _ hd => by cases hd⟩)
    | _ => exact .inl rfl

/-- Nothing is known against a connection that has been heard of in no request. -/
theorem Tracked.fresh {p : Peer} (hh : p.handling=none) (ha : p.answers=[]) : Tracked c events peer p where
  handling k hk := by simp [hh] at hk
  answers a h := by simp [ha] at h

/-- Where the handler of one connection has moved on, the others stand as they did. -/
theorem tracked_modify {f : Peer → Peer} {d : Coordinator}
    (ih : ∀ k p,(c.run events).peers[k]?=some p → Tracked c events k p)
    (hpeers : d.peers=(c.run events).peers.modify peer f)
    (hf : ∀ p,(c.run events).peers[peer]?=some p → Tracked c (events++[e]) peer (f p)) :
    ∀ k p,d.peers[k]?=some p → Tracked c (events++[e]) k p := by
  intro k p hp
  rw [hpeers,List.getElem?_modify] at hp
  obtain ⟨q,hq,rfl⟩ := Option.map_eq_some_iff.1 hp
  split_ifs with hk
  · subst hk
    exact hf q hq
  · exact (ih k q hq).snoc

/-- A handler returns. -/
theorem Tracked.answered {p : Peer} {request : Message} {call : Option Nat} {reply : Message}
    (h : Tracked c events peer p) (ha : Answered c events peer ⟨request,call,reply⟩) :
    Tracked c events peer { handling := none,answers := ⟨request,call,reply⟩::p.answers } where
  handling k hk := by cases hk
  answers a hm := by
    rcases List.mem_cons.1 hm with rfl | hm
    · exact ha
    · exact h.answers a hm

/-- A handler makes a call. -/
theorem Tracked.called {p : Peer} {k : Handling} (h : Tracked c events peer p)
    (hk : ∃ order,Order.read k.request=.ok order ∧ ∀ command type,order.phaseCall=some (command,type) →
      k.duty=.phase type ∧ Began c events peer k.request k.call command) :
    Tracked c events peer { p with handling := some k } where
  handling k' hk' := by
    cases hk'
    exact hk
  answers a hm := h.answers a hm

/-- What comes in is served, refused, or waits. -/
theorem receive_cases (c : Coordinator) (peer : Nat) (request : Message) (t : Turn) :
    (∃ order,Order.read request=.ok order ∧ c.receive peer request t=c.serve peer request t order) ∨
    (∃ e,Order.read request=.error e ∧ c.receive peer request t=c.answer peer request none (.error e)) ∨
    c.receive peer request t=c := by
  unfold receive
  split
  · cases Order.read request with
    | ok order => exact .inl ⟨order,rfl,rfl⟩
    | error e => exact .inr (.inl ⟨e,rfl,rfl⟩)
  · exact .inr (.inr rfl)

theorem receive_tracked (ih : ∀ k p,(c.run events).peers[k]?=some p → Tracked c events k p) :
    ∀ k p,((c.run events).receive peer request t).peers[k]?=some p →
      Tracked c (events++[.receive peer request t]) k p := by
  rcases receive_cases (c.run events) peer request t with
    ⟨order,hread,hreceive⟩ | ⟨e,hread,hreceive⟩ | hreceive
  · rw [hreceive]
    rcases serve_peers (c.run events) peer request t order with
      ⟨reply,hpeers,hnone⟩ | ⟨command,duty,hserve,hphase⟩
    · refine tracked_modify ih hpeers fun p hp => (ih peer p hp).snoc.answered ⟨respond_id ..,?_,?_⟩
      · intro e he
        cases hread.symm.trans he
      · intro order' command type ho hcall
        cases hread.symm.trans ho
        cases hnone.symm.trans hcall
    · rw [hserve] at hreceive ⊢
      refine tracked_modify ih rfl fun p hp => (ih peer p hp).snoc.called ⟨order,hread,?_⟩
      intro command' type hcall
      obtain ⟨rfl,rfl⟩ := hphase command' type hcall
      refine ⟨rfl,events.length,t,by simp,?_,?_⟩
      · rw [List.take_left]
      · rw [List.take_left,List.take_of_length_le (by simp),run_snoc,apply,hreceive]
        rfl
  · rw [hreceive]
    refine tracked_modify ih rfl fun p hp => (ih peer p hp).snoc.answered ⟨rfl,?_,?_⟩
    · intro e' he'
      cases hread.symm.trans he'
      exact ⟨rfl,rfl⟩
    · intro order command type ho
      cases hread.symm.trans ho
  · intro k p hp
    rw [hreceive] at hp
    exact (ih k p hp).snoc

theorem proceed_tracked (ih : ∀ k p,(c.run events).peers[k]?=some p → Tracked c events k p) :
    ∀ k p,((c.run events).apply (.proceed peer t)).peers[k]?=some p →
      Tracked c (events++[.proceed peer t]) k p := by
  have hstay : ∀ k p,(c.run events).peers[k]?=some p → Tracked c (events++[.proceed peer t]) k p :=
    fun k p hp => (ih k p hp).snoc
  rcases apply_proceed (c.run events) peer t with hstill | ⟨p,h,call,hp,hh,hcall,hgoes⟩
  · rw [hstill]
    exact hstay
  · rw [hgoes]
    obtain ⟨order,hread,hphase⟩ := (ih peer p hp).handling h hh
    rcases proceed_peers (c.run events) peer t h call with
      hnext | ⟨reply,hnext,hreply⟩ | ⟨wanted,command,duty,hduty,hnext⟩
    · rw [hnext]
      exact hstay
    · rw [hnext]
      refine tracked_modify ih rfl fun q hq => (ih peer q hq).snoc.answered ⟨respond_id ..,?_,?_⟩
      · intro e he
        cases hread.symm.trans he
      · intro order' command type ho hc
        cases hread.symm.trans ho
        obtain ⟨hduty,hb⟩ := hphase command type hc
        obtain ⟨result,rfl,rfl⟩ := hreply type hduty
        refine ⟨h.call,result,t.times,rfl,hb.snoc,?_,rfl⟩
        rw [run_snoc]
        exact (apply_served _ _).ran hcall
    · rw [hnext]
      refine tracked_modify ih rfl fun q hq => (ih peer q hq).snoc.called ⟨order,hread,?_⟩
      intro command' type hc
      cases hduty.symm.trans (hphase command' type hc).1

/-- Of every connection all this is known, however the handlers interleave. -/
theorem run_tracked (hfresh : ∀ p ∈ c.peers,p.handling=none ∧ p.answers=[]) (events : List Event) :
    ∀ k p,(c.run events).peers[k]?=some p → Tracked c events k p := by
  induction events using List.reverseRecOn with
  | nil =>
    intro k p hp
    obtain ⟨hh,ha⟩ := hfresh p (List.mem_of_getElem? hp)
    exact .fresh hh ha
  | append_singleton events e ih =>
    rw [run_snoc]
    cases e with
    | accept =>
      intro k p hp
      simp only [apply,List.getElem?_append] at hp
      split at hp
      · exact (ih k p hp).snoc
      · obtain rfl := List.mem_singleton.1 (List.mem_of_getElem? hp)
        exact .fresh rfl rfl
    | receive peer request t => exact receive_tracked ih
    | proceed peer t => exact proceed_tracked ih
    | resume index w =>
      intro k p hp
      exact (ih k p hp).snoc

/-- What a client makes of the answer to a phase call. -/
theorem phaseOutcome_respond (request : Message) {type : MessageType} (ht : type ≠ .error)
    (result : Result PhaseRunReport) (times : PhaseTimes) :
    (∀ e,result=.error e → Cli.phaseOutcome (respond request (result.map fun report =>
      { type,payload := encodePhaseReport report times }))=.error e.told) ∧
    ∀ x,Cli.phaseOutcome (respond request (result.map fun report =>
        { type,payload := encodePhaseReport report times }))=.ok x ↔
      ∃ report,result=.ok report ∧ report.Transportable ∧ x=(report.transported,times) := by
  cases result with
  | error e =>
    have hfailed : Cli.phaseOutcome (Worker.failure request e)=.error e.told := by
      simp only [Cli.phaseOutcome,Cli.accepted,Worker.failure,if_true,decodeError_encodeError]
      rfl
    refine ⟨fun e' he => ?_,fun x => ?_⟩
    · cases he
      exact hfailed
    · simp only [Except.map,respond,hfailed]
      simp
  | ok report =>
    have hread (m : Message) (hm : m.type=type) : Cli.phaseOutcome m=decodePhaseReport m.payload := by
      simp [Cli.phaseOutcome,Cli.accepted,hm,ht]
    refine ⟨fun e he => (by cases he),fun x => ?_⟩
    rw [Except.map,respond,hread _ rfl,phaseReport_recovered]
    simp

theorem Order.phaseCall_type {order : Order} {command : Command} {type : MessageType}
    (h : order.phaseCall=some (command,type)) : type ≠ .error := by
  cases order <;> cases h <;> decide

/-- The phase a request is about. -/
def Order.subject : Order → Option (CompilerSessionId × CompilerPhaseId)
  | .startPhase session phase => some (session,phase)
  | .retryPhase session phase => some (session,phase)
  | .commitPhase (session,phase,_,_) => some (session,phase)
  | .reportOutput (session,phase,_,_) => some (session,phase)
  | _ => none

theorem Order.subject_call {order : Order} (h : order.subject=some (sid,pid)) :
    ∃ command type,order.phaseCall=some (command,type) ∧ (command=.runPhase sid pid ∨
      command=.retryPhase sid pid ∨
      ∃ generation invocation,command=.commitPhase sid pid generation invocation) := by
  cases order with
  | startPhase session phase =>
    cases h
    exact ⟨_,_,rfl,.inl rfl⟩
  | retryPhase session phase =>
    cases h
    exact ⟨_,_,rfl,.inr (.inl rfl)⟩
  | commitPhase reference | reportOutput reference =>
    cases h
    exact ⟨_,_,rfl,.inr (.inr ⟨_,_,rfl⟩)⟩
  | _ => cases h

/-- The records of the numbers a client writes for a phase. -/
theorem phaseRequest_fields (session : CompilerSessionId) (phase : CompilerPhaseId) :
    ({ payload := (Cli.phaseRequest .startPhase session phase).payload } : FieldReader).Fields
      [⟨1,Base.leBytes 8 session.value.toNat⟩,⟨2,Base.leBytes 8 phase.value.toNat⟩] :=
  FieldCall.payload_fields [.u64 1 session.value,.u64 2 phase.value] (by simp [FieldCall.field])
    (by simp [FieldCall.field,kMaxFieldBytes])

theorem asU64_field {r : FieldReader} {id : UInt16} {v : UInt64}
    (h : r.field=⟨id,Base.leBytes 8 v.toNat⟩) : r.asU64=.ok v := by
  have hv : r.currentValue=Base.leBytes 8 v.toNat := congrArg Field.value h
  simp [FieldReader.asU64,hv,Base.leValue_leBytes 8 _ v.toNat_lt]

theorem startedPhase_phaseRequest (session : CompilerSessionId) (phase : CompilerPhaseId) :
    startedPhase (Cli.phaseRequest .startPhase session phase).payload=.ok (session,phase) := by
  have hf := phaseRequest_fields session phase
  obtain ⟨r,hr,_,hfirst,hrest,hlast,hid⟩ := FieldReader.next_record
    (t := (⟨2,Base.leBytes 8 phase.value.toNat⟩ : Field).record)
    (by simpa using hf.rest) (hf.bounded _ (by simp)) fun hl => hf.above hl _ (by simp)
  obtain ⟨q,hq,_,hsecond,_⟩ := FieldReader.next_record (r := r) (t := [])
    (f := ⟨2,Base.leBytes 8 phase.value.toNat⟩) (by simpa using hrest) (hf.bounded _ (by simp))
    fun _ => by
      rw [hid]
      show (1 : UInt16)<2
      decide
  simp only [startedPhase,hr,hq,bind,Except.bind,asU64_field hfirst,asU64_field hsecond]
  rfl

theorem namedPhase_phaseRequest (session : CompilerSessionId) (phase : CompilerPhaseId) :
    namedPhase (Cli.phaseRequest .retryPhase session phase).payload=.ok (session,phase) := by
  have hu (id : UInt16) (v : UInt64) :
      FieldReader.asU64 { payload := [],currentId := id,currentValue := Base.leBytes 8 v.toNat }=.ok v :=
    @asU64_field _ id v rfl
  have hfold : ([⟨1,Base.leBytes 8 session.value.toNat⟩,⟨2,Base.leBytes 8 phase.value.toNat⟩] :
      List Field).foldlM (fun values f => FieldReader.readNumber 2 values
        { payload := [],currentId := f.id,currentValue := f.value }) [0,0]=
      .ok [session.value,phase.value] := by
    simp [FieldReader.readNumber,hu,bind,Except.bind,pure,Except.pure]
  obtain ⟨last,hl,_⟩ := FieldReader.each_fields (FieldReader.readNumber 2) _ (fun _ _ => rfl)
    (Nat.zero_le _) (phaseRequest_fields session phase) hfold
  have hpayload : (Cli.phaseRequest .retryPhase session phase).payload=
      (Cli.phaseRequest .startPhase session phase).payload := rfl
  rw [namedPhase,hpayload,hl]
  rfl

theorem Order.read_startPhase {request : Message} (h : request.type=.startPhase) :
    Order.read request=(startedPhase request.payload).map fun (s,p) => .startPhase s p := by
  simp +decide only [Order.read,h,if_true,if_false]

theorem Order.read_retryPhase {request : Message} (h : request.type=.retryPhase) :
    Order.read request=(namedPhase request.payload).map fun (s,p) => .retryPhase s p := by
  simp +decide only [Order.read,h,if_true,if_false]

/-- The coordinator reads what a client asked for. -/
theorem read_phaseRequest (session : CompilerSessionId) (phase : CompilerPhaseId) (requestId : UInt64) :
    Order.read { Cli.phaseRequest .startPhase session phase with requestId }=
      .ok (.startPhase session phase) ∧
    Order.read { Cli.phaseRequest .retryPhase session phase with requestId }=
      .ok (.retryPhase session phase) := by
  constructor
  · have hread := startedPhase_phaseRequest session phase
    rw [Order.read_startPhase rfl,hread]
    rfl
  · have hread := namedPhase_phaseRequest session phase
    rw [Order.read_retryPhase rfl,hread]
    rfl

/-- The client is answered, and what it reads is COMMITTED. -/
theorem served_answer : ∃ p,(Sample.coordinator.run Sample.served).peers[0]?=some p ∧
    ∃ a ∈ p.answers,a.request.requestId=2 ∧ Order.read a.request=.ok (.startPhase ⟨1⟩ ⟨1⟩) ∧
      ∃ x,Cli.phaseOutcome a.reply=.ok x ∧ x.1.state=.committed := by
  have h : (Sample.coordinator.run Sample.served).peers[0]?.any fun p => p.answers.any fun a =>
      a.request=({ Cli.phaseRequest .startPhase ⟨1⟩ ⟨1⟩ with requestId := 2 } : Message) &&
        (Cli.phaseOutcome a.reply).toOption.any (·.1.state=.committed) := by decide +kernel
  obtain ⟨p,hp,h⟩ := (Option.any_eq_true _ _).1 h
  obtain ⟨a,ha,h⟩ := List.any_eq_true.1 h
  rw [Bool.and_eq_true,decide_eq_true_eq] at h
  obtain ⟨hrequest,h⟩ := h
  obtain ⟨x,hx,hs⟩ := ok_of_any h
  have hread : Order.read a.request=.ok (.startPhase ⟨1⟩ ⟨1⟩) := by
    rw [hrequest]
    exact (read_phaseRequest ..).1
  exact ⟨p,hp,a,ha,by rw [hrequest],hread,x,hx,of_decide_eq_true hs⟩

/-- A call about a phase that comes back COMMITTED has its phase stand so after it was made. -/
theorem Began.committed (hr : c.sys.Regular) {request : Message} {i : Nat} {command : Command}
    (hb : Began c events k request i command) (hcommand : command=.runPhase sid pid ∨
      command=.retryPhase sid pid ∨
      ∃ generation invocation,command=.commitPhase sid pid generation invocation)
    {report : PhaseRunReport} (hc : (c.run events).sys.calls[i]?=some (.ran (.ok report)))
    (hs : report.state=.committed) :
    ∃ n t m,events[n]?=some (.receive k request t) ∧ n < m ∧ m ≤ events.length ∧
      (c.run (events.take m)).sys.rt.HasCommitted sid pid := by
  obtain ⟨n,t,hn,hi,hsys⟩ := hb
  have hlt := (List.getElem?_eq_some_iff.1 hn).1
  have hup : (c.run (events.take n)).sys.up := by
    have h := (@run_regular c events hr).up i _ hc
    rw [run_up] at h ⊢
    exact h
  have hsees := System.Sees.of_start (w := t.world) hup hcommand
  rw [hi,← hsys] at hsees
  have hrest : (c.run (events.take (n+1))).run (events.drop (n+1))=c.run events := by
    rw [← run_append,List.take_append_drop]
  rw [← hrest] at hc
  obtain ⟨j,hj,hcommitted⟩ := run_sees (run_regular hr) hsees hc hs
  rw [← run_append,← List.take_add] at hcommitted
  rw [List.length_drop] at hj
  exact ⟨n,t,n+1+j,hn,by omega,by omega,hcommitted⟩

/-- A client that reads COMMITTED in the answer to a request about a phase is told the truth: the phase
stood COMMITTED at a moment after the request came in, and where the coordinator started without
sessions, with everything it depends on committed before it. -/
theorem told_committed (name : Bytes) (options : RuntimeOptions) (adapters : List Adapter)
    (file : Bytes) (w : World) (hp : ((start name options adapters file w).run events).peers[k]?=some p)
    (ha : a ∈ p.answers) {order : Order} (ho : Order.read a.request=.ok order)
    (hsubject : order.subject=some (sid,pid)) {x : PhaseRunReport × PhaseTimes}
    (hx : Cli.phaseOutcome a.reply=.ok x) (hs : x.1.state=.committed) :
    ∃ n t m,events[n]?=some (.receive k a.request t) ∧ n < m ∧ m ≤ events.length ∧
      ∃ s q,((start name options adapters file w).run (events.take m)).sys.rt.find sid=some s ∧
        s.findPhase pid=some q ∧ q.state=.committed ∧
        ((start name options adapters file w).sys.rt.sessions=∅ → ∀ dependency,
          Relation.TransGen (PlanData.Needs s.plan.nodes) pid dependency →
          ∃ d,s.findPhase dependency=some d ∧ d.commit.present ∧
            d.state ∈ [PhaseState.committed,.fenced,.retired]) := by
  have hr : (start name options adapters file w).sys.Regular := System.boot_regular options adapters file w
  have hfresh : ∀ p ∈ (start name options adapters file w).peers,p.handling=none ∧ p.answers=[] := by
    simp [start]
  obtain ⟨command,type,hphase,hcommand⟩ := Order.subject_call hsubject
  obtain ⟨i,result,times,_,hb,hran,hreply⟩ :=
    ((run_tracked hfresh events k p hp).answers a ha).phase order command type ho hphase
  rw [hreply] at hx
  have htold := (phaseOutcome_respond a.request (Order.phaseCall_type hphase) result times).2 x
  obtain ⟨report,rfl,_,rfl⟩ := htold.1 hx
  obtain ⟨n,t,m,hn,hnm,hm,q,hq,hcommitted⟩ := hb.committed hr hcommand hran hs
  obtain ⟨s,hfind,hq⟩ := Option.bind_eq_some_iff.1 hq
  refine ⟨n,t,m,hn,hnm,hm,s,q,hfind,hq,hcommitted,fun hempty dependency hd => ?_⟩
  have hl := run_lawful_of_empty hempty (events.take m) sid s hfind
  have hphase := hl.phases pid q hq
  exact hl.dependency hq (hphase.begun (.inr (hphase.committed hcommitted))) hd

theorem told_committed_of_served : ∃ m ≤ Sample.served.length,∃ s q,
    (Sample.coordinator.run (Sample.served.take m)).sys.rt.find ⟨1⟩=some s ∧
    s.findPhase ⟨1⟩=some q ∧ q.state=.committed := by
  obtain ⟨p,hp,a,ha,_,hread,x,hx,hs⟩ := served_answer
  obtain ⟨_,_,m,_,_,hm,s,q,hfind,hq,hcommitted,_⟩ :=
    told_committed [] Sample.options [Sample.adapter] [] Sample.world hp ha hread rfl hx hs
  exact ⟨m,hm,s,q,hfind,hq,hcommitted⟩

end Coordinator

end CompilerFabric
