import CompilerFabric.Runtime.Holdings

namespace CompilerFabric

open Base Base.Action

namespace Runtime

/-- An operation on the session: of what was there before, only what the session held is
written. -/
structure Acts (who : CompilerSessionId) (rt rt' : Runtime) : Prop where
  estate : rt.estate.Moves who rt'.estate
  sessions : ∀ i,i ≠ who.value → rt'.sessions[i]?=rt.sessions[i]?
  leases : ∀ i : UInt64,i.toNat<rt.leases.allocator.counter.toNat →
    rt'.leases.entries[i]?=rt.leases.entries[i]? ∨ rt.estate.Cites who i
  artifacts : ∀ i : UInt64,i.toNat<rt.artifacts.allocator.counter.toNat →
    rt'.artifacts.entries[i]?=rt.artifacts.entries[i]? ∨ rt.estate.Reaches who ⟨i⟩

instance {who : CompilerSessionId} : IsPreorder Runtime (Acts who) where
  refl _ := ⟨.refl _,fun _ _ => rfl,fun _ _ => .inl rfl,fun _ _ => .inl rfl⟩
  trans := by
    intro rt rt' rt'' h h'
    have ⟨_,_,hl,ha⟩ := h.estate.counters
    refine ⟨h.estate.trans h'.estate,fun i hi => (h'.sessions i hi).trans (h.sessions i hi),?_,?_⟩
    · intro i hi
      rcases h'.leases i (Nat.lt_of_lt_of_le hi hl) with he | hc
      · rw [he]
        exact h.leases i hi
      · exact .inr ((h.estate.cites hc).resolve_right fun hle => absurd hi (Nat.not_lt.2 hle))
    · intro i hi
      rcases h'.artifacts i (Nat.lt_of_lt_of_le hi ha) with he | hr
      · rw [he]
        exact h.artifacts i hi
      · exact .inr ((h.estate.reaches hr).resolve_right fun hle => absurd hi (Nat.not_lt.2 hle))

theorem Tends.acts {who : CompilerSessionId} {rt rt' : Runtime} (h : Tends who rt rt') :
    Acts who rt rt' :=
  ⟨h.estate ▸ .refl _,h.sessions,fun i _ => h.leases i,fun i _ => h.artifacts i⟩

/-- No session or phase identity is drawn. -/
def SameIds (rt t : Runtime) : Prop := (t.sessionIds,t.phaseIds)=(rt.sessionIds,rt.phaseIds)

instance : IsPreorder Runtime SameIds where
  refl _ := rfl
  trans _ _ _ h h' := Eq.trans h' h

variable (w : World) (r : Reservation) (sid : CompilerSessionId) (pid : CompilerPhaseId)

theorem Tends.sameIds {who : CompilerSessionId} {rt rt' : Runtime} (h : Tends who rt rt') :
    SameIds rt rt' :=
  congrArg (fun e : Estate => (e.sessionIds,e.phaseIds)) h.estate

theorem reserve_ids (isRetry : Bool) : Within SameIds (reserve w sid pid isRetry) := by
  refine Within.get.bind fun rt => (Within.ofExcept _).bind fun (session,phase,inputs) => ?_
  refine Within.bind (fun _ => rfl) fun attempt => Within.bind (fun _ => rfl) fun invocation => ?_
  refine (Within.ofExcept _).bind fun workspace => Within.bind (fun _ => rfl) fun lease => ?_
  have persist : Within SameIds (persistSession w sid) :=
    (persistSession_tends w sid).mono fun _ _ (h : Tends sid _ _) => h.sameIds
  exact Within.bind (fun _ => rfl) fun _ => persist.bind fun _ => .pure _

end Runtime

namespace CompilerSession

/-- The holding of a session one phase of which is written. -/
theorem modifyPhase_held (s : CompilerSession) {pid : CompilerPhaseId} {p : PhaseRecord}
    (hp : s.findPhase pid=some p) (f : PhaseRecord → PhaseRecord) :
    (s.modifyPhase pid f).holding=⟨s.id,s.intermediates.map (·.id),
      Function.update s.holding.phases pid.value (some (f p).holding)⟩ := by
  have hp : s.phases[pid.value]?=some p := hp
  have h : (fun i : UInt64 => (s.modifyPhase pid f).phases[i]?.map (·.holding))=
      Function.update s.holding.phases pid.value (some (f p).holding) := by
    funext i
    simp only [modifyPhase,Std.ExtTreeMap.getElem?_modify]
    by_cases hi : i=pid.value
    · subst hi
      simp [hp]
    · rw [Function.update_of_ne hi,if_neg]
      · rfl
      · exact fun hc => hi (Std.LawfulEqCmp.eq_of_compare hc).symm
  rw [holding,h]
  rfl

end CompilerSession

/-- Whom an entry belongs to once one was added where there was none. -/
theorem Table.insertIfNew_held {α β : Type} (m : Table α) (f : α → β) (k : UInt64) (a : α) :
    (fun i : UInt64 => (m.insertIfNew k a)[i]?.map f)=if (m[k]?.map f).isSome then
      fun i : UInt64 => m[i]?.map f else Function.update (fun i : UInt64 => m[i]?.map f) k (some (f a)) := by
  funext i
  rw [Std.ExtTreeMap.getElem?_insertIfNew]
  by_cases hm : k ∈ m
  · simp [hm]
  · have hn : m[k]?=none := by simpa using hm
    by_cases hi : i=k
    · subst hi
      simp [hm]
    · have hc : compare k i ≠ .eq := fun hc => hi (Std.LawfulEqCmp.eq_of_compare hc).symm
      simp [hn,hc,Function.update_of_ne hi]

namespace Runtime

/-- The holdings once one session is written. -/
theorem modify_held {rt : Runtime} {sid : CompilerSessionId} {s : CompilerSession}
    (hs : rt.find sid=some s) (f : CompilerSession → CompilerSession) :
    (fun i : UInt64 => (rt.sessions.modify sid.value f)[i]?.map (·.holding))=
      Function.update rt.estate.sessions sid.value (some (f s).holding) := by
  have hs : rt.sessions[sid.value]?=some s := hs
  funext i
  rw [Std.ExtTreeMap.getElem?_modify]
  by_cases hi : i=sid.value
  · subst hi
    simp [hs]
  · rw [Function.update_of_ne hi,if_neg]
    · rfl
    · exact fun hc => hi (Std.LawfulEqCmp.eq_of_compare hc).symm

theorem reserved_holding (r : Reservation) (s : CompilerSession) (p : PhaseRecord)
    (inputs : List (Ref .intermediate)) (isRetry : Bool) (now : UInt64) :
    (p.reserved s r inputs isRetry now).holding={ p.holding with lease := r.lease.id,outputs := [] } := by
  have ⟨_,_,he⟩ := reserved_frame r p s inputs isRetry now
  rw [he]
  rfl

theorem Reserves.estate {w : World} {sid : CompilerSessionId} {pid : CompilerPhaseId}
    {isRetry : Bool} {rt t : Runtime} {s : CompilerSession} {p : PhaseRecord}
    {inputs : List (Ref .intermediate)} {r : Reservation}
    (h : Reserves w sid pid isRetry rt t s p inputs r) (hi : SameIds rt t) :
    t.estate=rt.estate.reserved sid s.holding pid.value p.holding := by
  have ha := (admission_iff sid pid).1 h.admitted
  have ⟨reason,hg⟩ := h.granted
  simp only [LeaseTable.grant,Prod.mk.injEq] at hg
  have ⟨hr,hl⟩ := hg
  have hi : t.sessionIds=rt.sessionIds ∧ t.phaseIds=rt.phaseIds := Prod.mk.inj hi
  have hs : t.estate.sessions=(rt.estate.reserved sid s.holding pid.value p.holding).sessions := by
    show (fun i : UInt64 => t.sessions[i]?.map (·.holding))=_
    rw [h.sessions,modify_held ha.session]
    have hp : s.findPhase r.phase=some p := h.phase ▸ ha.phase
    have hh := s.modifyPhase_held hp fun p => p.reserved s r inputs isRetry w.now
    have hh : (s.reserved r inputs isRetry w.now).holding=_ := hh
    rw [hh,reserved_holding,h.phase,hr]
    rfl
  have hl' : t.estate.leases=(rt.estate.reserved sid s.holding pid.value p.holding).leases := by
    show (fun i : UInt64 => t.leases.entries[i]?.map (·.session.id))=_
    rw [hl]
    exact Table.insertIfNew_held rt.leases.entries _ _ _
  refine Estate.ext hs hl' ?_ hi.1 hi.2 ?_ ?_
  · show (fun i => t.artifacts.byPhase.getD i [])=_
    rw [h.artifacts]
    rfl
  · show t.leases.allocator=_
    rw [hl]
    rfl
  · show t.artifacts.allocator=_
    rw [h.artifacts]
    rfl

theorem getElem?_insertIfNew_of_lt {α : Type} (m : Table α) (a : α) {k i : UInt64}
    (h : i.toNat<k.toNat) : (m.insertIfNew k a)[i]?=m[i]? := by
  rw [Std.ExtTreeMap.getElem?_insertIfNew,if_neg]
  intro hc
  have hk := Std.LawfulEqCmp.eq_of_compare hc.1
  rw [hk] at h
  exact Nat.lt_irrefl _ h

variable (w : World) (r : Reservation) (sid : CompilerSessionId) (pid : CompilerPhaseId)

theorem reserve_acts (isRetry : Bool) : Within (Acts sid) (reserve w sid pid isRetry) := by
  intro rt
  have hi := reserve_ids w sid pid isRetry rt
  cases hx : reserve w sid pid isRetry rt with
  | mk result t =>
    rw [hx] at hi
    show Acts sid rt t
    rcases reserve_spec w sid pid hx with ⟨⟨hs,hl,ha⟩,_⟩ | ⟨s,p,inputs,r,h,_⟩
    · obtain ⟨hi,hp⟩ := Prod.mk.inj hi
      refine Tends.acts (.aside ?_)
      rw [shared,shared,hs,hl,ha,hi,hp]
    · have ha := (admission_iff sid pid).1 h.admitted
      have hs : rt.sessions[sid.value]?=some s := ha.session
      have hp : s.phases[pid.value]?=some p := ha.phase
      obtain ⟨reason,hg⟩ := h.granted
      refine ⟨?_,?_,?_,fun _ _ => .inl (by rw [h.artifacts])⟩
      · rw [h.estate hi]
        refine .reserve ?_ ?_
        · simp only [estate,hs,Option.map_some]
        · simp only [CompilerSession.holding,hp,Option.map_some]
      · intro i hi
        rw [h.sessions,Std.ExtTreeMap.getElem?_modify,if_neg]
        exact fun hc => hi (Std.LawfulEqCmp.eq_of_compare hc).symm
      · intro i hi
        simp only [LeaseTable.grant,Prod.mk.injEq] at hg
        refine .inl ?_
        rw [hg.2]
        exact getElem?_insertIfNew_of_lt _ _ (Nat.lt_of_lt_of_le hi (IdAllocator.le_drawn _))

/-- An operation that has found the phase `id` of the session at `k`. -/
abbrev ActsFrom {α : Type} (who : CompilerSessionId) (k : UInt64) (id : CompilerPhaseId)
    (x : Op α) : Prop :=
  WithinFrom (fun rt => rt.estate.At who k id) (Acts who) x

namespace ActsFrom

variable {who : CompilerSessionId} {k : UInt64} {id : CompilerPhaseId} {α β : Type}

theorem bind {x : Op α} {f : α → Op β} (hx : ActsFrom who k id x)
    (hf : ∀ a,ActsFrom who k id (f a)) : ActsFrom who k id (x >>= f) :=
  WithinFrom.bind (fun _ _ h hs => h.estate.keeps_phase hs) hx hf

theorem tends {x : Op α} (h : Within (Tends who) x) : ActsFrom who k id x :=
  fun rt _ => (h rt).acts

theorem forEach {f : β → Op Unit} {xs : List β} (h : ∀ x,ActsFrom who k id (f x)) :
    ActsFrom who k id (Action.forEach f xs) :=
  WithinFrom.forEach (fun _ _ h hs => h.estate.keeps_phase hs) fun x _ => h x

end ActsFrom

theorem at_of_find {rt : Runtime} {s : CompilerSession} {p : PhaseRecord}
    (hs : rt.find sid=some s) (hp : s.findPhase pid=some p) :
    rt.estate.At sid pid.value p.id := by
  have hs : rt.sessions[sid.value]?=some s := hs
  have hp : s.phases[pid.value]?=some p := hp
  refine ⟨s.holding,p.holding,?_,?_,rfl⟩
  · simp only [estate,hs,Option.map_some]
  · simp only [CompilerSession.holding,hp,Option.map_some]

theorem find_of_at {rt : Runtime} {id : CompilerPhaseId} (h : rt.estate.At sid pid.value id) :
    ∃ s p,rt.find sid=some s ∧ s.findPhase pid=some p ∧ p.id=id := by
  have ⟨g,q,hg,hq,hid⟩ := h
  have ⟨s,hs,he⟩ := Option.map_eq_some_iff.1 hg
  subst he
  have ⟨p,hp,he⟩ := Option.map_eq_some_iff.1 hq
  subst he
  exact ⟨s,p,hs,hp,hid⟩

/-- The session once an output of the phase is registered. -/
def withOutput (pid : CompilerPhaseId) (reference : Ref .intermediate) (s : CompilerSession) :
    CompilerSession :=
  { s.modifyPhase pid fun p => { p with outputs := p.outputs++[reference] } with
    intermediates := s.intermediates++[reference] }

theorem withOutput_holding {s : CompilerSession} {p : PhaseRecord} {pid : CompilerPhaseId}
    (hp : s.findPhase pid=some p) (reference : Ref .intermediate) :
    (withOutput pid reference s).holding={ s.holding with
      intermediates := s.holding.intermediates++[reference.id]
      phases := Function.update s.holding.phases pid.value
        (some { p.holding with outputs := p.holding.outputs++[reference.id] }) } := by
  have h := congrArg Holding.phases
    (s.modifyPhase_held hp fun p => { p with outputs := p.outputs++[reference] })
  have houtputs : ({ p with outputs := p.outputs++[reference] } : PhaseRecord).holding=
      { p.holding with outputs := p.holding.outputs++[reference.id] } := by
    simp [PhaseRecord.holding]
  rw [houtputs] at h
  exact Holding.ext rfl List.map_append h

theorem registerOutput_acts (session : CompilerSession) (phase : PhaseRecord)
    (output : OutputDescriptor) :
    ActsFrom r.session r.phase.value phase.id (registerOutput r session phase output) := by
  intro rt hat
  have ⟨s,p,hs,hp,hid⟩ := find_of_at _ _ hat
  cases hx : rt.artifacts.registerArtifact (candidateArtifact session phase r.invocation output) with
  | error e =>
    have hr : registerArtifact (candidateArtifact session phase r.invocation output) rt=(.error e,rt) := by
      simp only [registerArtifact,hx]
    rw [registerOutput,bind_error hr]
    exact Std.Refl.refl rt
  | ok found =>
    have ⟨reference,artifacts⟩ := found
    have hr : registerArtifact (candidateArtifact session phase r.invocation output) rt=
        (.ok reference,{ rt with artifacts }) := by
      simp only [registerArtifact,hx]
    rw [registerOutput,bind_ok hr]
    simp only [ArtifactRegistry.registerArtifact] at hx
    split at hx
    · cases hx
    cases hx
    have hs' : rt.sessions[r.session.value]?=some s := hs
    have hp' : s.phases[r.phase.value]?=some p := hp
    let reference : Ref .intermediate := ⟨rt.artifacts.allocator.next.1,.initial⟩
    let artifacts : ArtifactRegistry := ⟨rt.artifacts.entries.insertIfNew reference.id.value
      { candidateArtifact session phase r.invocation output with
        id := reference.id,generation := .initial },
      rt.artifacts.indexPhase phase.id reference.id,rt.artifacts.allocator.next.2⟩
    let t : Runtime := { { rt with artifacts }.modifySession r.session (withOutput r.phase reference) with
      registered := rt.registered++[⟨reference.id,r.session,r.phase,r.phaseGeneration⟩] }
    show Acts r.session rt t
    have he : t.estate=rt.estate.registered r.session s.holding r.phase.value p.holding := by
      refine Estate.ext ?_ rfl ?_ rfl rfl rfl rfl
      · have hm := modify_held hs (withOutput r.phase reference)
        rw [withOutput_holding hp] at hm
        exact hm
      · funext i
        show (rt.artifacts.indexPhase phase.id reference.id).getD i []=
          Function.update rt.estate.index p.id.value _ i
        rw [hid,ArtifactRegistry.indexPhase,Std.ExtTreeMap.getD_insert]
        by_cases hi : i=phase.id.value
        · subst hi
          rw [Function.update_self,if_pos Std.ReflCmp.compare_self]
          show rt.artifacts.byPhase.getD _ []++_=rt.artifacts.byPhase.getD p.id.value []++_
          rw [hid]
          rfl
        · rw [Function.update_of_ne hi,if_neg]
          · rfl
          · exact fun hc => hi (Std.LawfulEqCmp.eq_of_compare hc).symm
    refine ⟨?_,?_,fun _ _ => .inl rfl,?_⟩
    · rw [he]
      refine .register ?_ ?_
      · simp only [estate,hs',Option.map_some]
      · simp only [CompilerSession.holding,hp',Option.map_some]
    · intro i hi
      show (rt.sessions.modify r.session.value _)[i]?=_
      rw [Std.ExtTreeMap.getElem?_modify,if_neg]
      exact fun hc => hi (Std.LawfulEqCmp.eq_of_compare hc).symm
    · intro i hi
      exact .inl (getElem?_insertIfNew_of_lt _ _ (Nat.lt_of_lt_of_le hi (IdAllocator.le_drawn _)))

theorem addDiagnostics_tends {who : CompilerSessionId} (set : DiagnosticSet) :
    Within (Tends who) (addDiagnostics set) := by
  intro rt
  unfold addDiagnostics
  split
  · exact Std.Refl.refl rt
  · exact .aside rfl

theorem recordExecution_acts (report : ExecutionReport) :
    Within (Acts r.session) (recordExecution w r report) := by
  intro rt
  refine Within.get_at (Within.ofExcept_at fun (session,phase) hr => ?_)
  have hat : rt.estate.At r.session r.phase.value phase.id := by
    simp only [recordable,do_eq_ok,requireSession_ok,requirePhase_ok] at hr
    obtain ⟨s,hs,p,hp,_,_,_,_,_,_,he⟩ := hr
    cases he
    exact at_of_find _ _ hs hp
  refine ActsFrom.bind (.tends (writePhase_tends _ _ fun p => (p.attemptReported_quiet _ _).holding))
    (fun _ => ?_) rt hat
  refine ActsFrom.bind (.tends (addDiagnostics_tends _)) fun stored => ?_
  refine ActsFrom.bind (.tends (writePhase_tends _ _ fun _ => rfl)) fun _ => ?_
  refine ActsFrom.bind (.tends fun _ => .aside rfl) fun _ => ?_
  split
  · refine ActsFrom.bind (.tends (writePhase_tends _ _ fun p => (p.produced_quiet _ _).holding)) fun _ => ?_
    refine ActsFrom.bind (.forEach (registerOutput_acts r session phase)) fun _ => .tends ?_
    refine Within.bind (fun _ => modifyPhase_tends _ fun _ => rfl) fun _ => ?_
    refine Within.bind (write_tends _ fun s => ?_) fun _ => persistSession_tends w _
    exact s.modifyPhase_holding _ fun p =>
      (p.recordTransition_quiet _ _ (by decide) (by decide)).holding
  · refine .tends (Within.bind (write_tends _ fun s => ?_) fun _ => persistSession_tends w _)
    exact s.modifyPhase_holding _ fun p => (p.executionFailed_quiet _ _ _).holding

theorem reportOutput_acts (generation : CompilerPhaseGeneration) (invocation : Ref .invocation)
    (outputs : List OutputDescriptor) (process : ProcessOutcome) :
    Within (Acts sid) (reportOutput w sid pid generation invocation outputs process) :=
  Within.get.bind fun _ => (Within.ofExcept _).bind fun session => (Within.ofExcept _).bind fun phase =>
    (Within.ofExcept _).bind fun _ => (Within.ofExcept _).bind fun _ =>
      (recordExecution_acts w (rebuiltReservation session phase sid pid generation invocation) _).bind
        fun _ => Within.get.bind fun _ => .pure _

end Runtime

end CompilerFabric
