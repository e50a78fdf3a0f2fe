import CompilerFabric.Law.Monotone

namespace CompilerFabric

open Base Base.Action

/-- A `retry_phase` of the session, counted and not yet before its reservation. -/
def Call.pendingRetry (sid : CompilerSessionId) : Call → Bool
  | .phase run => run.session=sid && run.isRetry && run.pc=.reserve
  | _ => false

namespace System

/-- How many retries of the session stand between their count and their reservation. -/
def pendingRetries (sys : System) (sid : CompilerSessionId) : Nat :=
  sys.calls.countP (Call.pendingRetry sid)

/-- The event is the reservation of a counted retry of the session: whether it is carried out. -/
def retryMet (sys : System) (sid : CompilerSessionId) : Event → Option Bool
  | .resume index w => match sys.calls[index]? with
      | some (.phase run) => if sys.up ∧ Call.pendingRetry sid (.phase run) then
          some ((sys.rt.admission run.session run.phase run.isRetry).toBool && w.workspace.toBool)
        else none
      | _ => none
  | _ => none

/-- How many retry attempts of the session a run reserves. -/
def reservedRetries (sid : CompilerSessionId) : System → List Event → Nat
  | _,[] => 0
  | sys,e::events => (if sys.retryMet sid e=some true then 1 else 0)+
      reservedRetries sid (sys.apply e) events

/-- How many counted retries of the session a run refuses to reserve. -/
def refusedRetries (sid : CompilerSessionId) : System → List Event → Nat
  | _,[] => 0
  | sys,e::events => (if sys.retryMet sid e=some false then 1 else 0)+
      refusedRetries sid (sys.apply e) events

variable {sys : System} {sid : CompilerSessionId} {e : Event}

end System

theorem PhaseRun.step_pendingRetry (w : World) (run : PhaseRun) (rt : Runtime)
    (sid : CompilerSessionId) : ((run.step w rt).1.pendingRetry sid)=false := by
  cases hc : (run.step w rt).1 with
  | phase run' =>
    have ⟨_,hg⟩ := step_phase hc
    have hne : run'.pc ≠ .reserve := by
      intro he
      rw [he] at hg
      cases hg
    simp [Call.pendingRetry,hne]
  | _ => rfl

/-- A round starts no retry. -/
theorem SessionRun.step_pendingRetry (w : World) (run : SessionRun) (calls : List Call)
    (rt : Runtime) (sid : CompilerSessionId) :
    (run.step w calls rt).1.pendingRetry sid=false ∧
      (run.step w calls rt).2.1.countP (Call.pendingRetry sid)=0 := by
  unfold step
  cases run.pc with
  | limit =>
    dsimp only
    split <;> exact ⟨rfl,rfl⟩
  | ceiling =>
    dsimp only
    split <;> exact ⟨rfl,rfl⟩
  | round =>
    dsimp only
    split
    · exact ⟨rfl,rfl⟩
    · split
      · exact ⟨rfl,rfl⟩
      · exact ⟨rfl,rfl⟩
      · exact ⟨rfl,rfl⟩
      · refine ⟨rfl,?_⟩
        rw [List.countP_eq_zero]
        intro c hc
        have ⟨phase,_,he⟩ := List.mem_map.1 hc
        rw [← he]
        simp [Call.pendingRetry]
  | waiting children =>
    dsimp only
    split
    · exact ⟨rfl,rfl⟩
    · split
      · exact ⟨rfl,rfl⟩
      · split <;> exact ⟨rfl,rfl⟩
  | finish =>
    dsimp only
    split <;> exact ⟨rfl,rfl⟩

/-- Only a permitted `retry_phase` enters as a pending retry. -/
theorem Command.start_pendingRetry {w : World} {rt : Runtime} {c : Command}
    {sid : CompilerSessionId} (h : (c.start w rt).1.pendingRetry sid=true) :
    ∃ pid,c=.retryPhase sid pid ∧ (c.start w rt).2=rt.modifySession sid (·.counted) := by
  cases c with
  | retryPhase session phase =>
    rcases Runtime.beginRetry_spec session phase rt with ⟨_,hb⟩ | ⟨_,_,hb⟩ | ⟨s,p,hs,hp,hl,hb⟩
    · simp [start,hb,Call.pendingRetry] at h
    · simp [start,hb,Call.pendingRetry] at h
    · simp only [start,hb,Call.pendingRetry,Bool.and_true,decide_true,decide_eq_true_eq] at h
      subst h
      exact ⟨phase,rfl,by simp only [start,hb]⟩
  | commitPhase session phase generation invocation =>
    simp only [start] at h
    split at h <;> simp [Call.pendingRetry] at h
  | cancelSession session reason =>
    simp only [start] at h
    split at h <;> simp [Call.pendingRetry] at h
  | applyRecovery session =>
    simp only [start] at h
    split at h <;> simp [Call.pendingRetry] at h
  | shutdown =>
    simp only [start] at h
    split at h <;> simp [Call.pendingRetry] at h
  | _ => simp [start,ended,Call.pendingRetry] at h

namespace System

variable {sys : System} {sid : CompilerSessionId} {e : Event} {s : CompilerSession}

/-- The event counts a retry of the session. -/
def countsRetry (sys : System) (sid : CompilerSessionId) : Event → Bool
  | .call command w => sys.up && (command.start w (sys.rt.facing w)).1.pendingRetry sid
  | _ => false

/-- What stands between its count and its reservation comes with the count and goes with the
reservation. -/
theorem apply_pendingRetries (he : e.inProcess) :
    (sys.apply e).pendingRetries sid+(sys.retryMet sid e).toList.length=
      sys.pendingRetries sid+(sys.countsRetry sid e).toNat := by
  cases e with
  | restart options adapters w => exact he.elim
  | call command w =>
    by_cases hu : sys.up
    · simp only [apply,hu,if_true,pendingRetries,List.countP_append,List.countP_singleton,retryMet,
        countsRetry,Bool.true_and,Option.toList_none,List.length_nil,Nat.add_zero]
      cases (command.start w (sys.rt.facing w)).1.pendingRetry sid <;> rfl
    · simp [apply,hu,retryMet,countsRetry]
  | resume index w =>
    by_cases hu : sys.up
    · cases hc : sys.calls[index]? with
      | none => simp [apply,hu,hc,retryMet,countsRetry]
      | some call =>
        obtain ⟨hi,hget⟩ := List.getElem?_eq_some_iff.1 hc
        have hset (call' : Call) : (sys.calls.set index call').countP (Call.pendingRetry sid)+
            (call.pendingRetry sid).toNat=
            sys.pendingRetries sid+(call'.pendingRetry sid).toNat := by
          rw [pendingRetries,List.countP_set hi,hget]
          have hpos : call.pendingRetry sid=true →
              0<sys.calls.countP (Call.pendingRetry sid) := fun h =>
            List.countP_pos_iff.2 ⟨call,hget ▸ List.getElem_mem hi,h⟩
          cases hcall : call.pendingRetry sid with
          | false => cases call'.pendingRetry sid <;> simp
          | true =>
            have := hpos hcall
            cases call'.pendingRetry sid <;> simp <;> omega
        have quiet (call' : Call) (hq : call.pendingRetry sid=false)
            (hq' : call'.pendingRetry sid=false) :
            (sys.calls.set index call').countP (Call.pendingRetry sid)=sys.pendingRetries sid := by
          have h := hset call'
          rw [hq,hq'] at h
          exact h
        cases call with
        | phase run =>
          have h := hset (run.step w (sys.rt.facing w)).1
          rw [run.step_pendingRetry w _ sid] at h
          have hmet : (sys.retryMet sid (.resume index w)).toList.length=
              (Call.pendingRetry sid (.phase run)).toNat := by
            simp only [retryMet,hc,hu,true_and]
            cases Call.pendingRetry sid (.phase run) <;> rfl
          rw [hmet]
          simp only [apply,hu,hc,if_true]
          exact h
        | session run =>
          obtain ⟨hcall,hnew⟩ := run.step_pendingRetry w sys.calls (sys.rt.facing w) sid
          have h := quiet (run.step w sys.calls (sys.rt.facing w)).1 rfl hcall
          simp only [apply,hu,hc,if_true,resume,retryMet,countsRetry,pendingRetries,
            List.countP_append,hnew]
          exact h
        | cancel session reason remaining =>
          cases remaining with
          | nil =>
            have h := quiet (ended (Runtime.endCancelSession w session reason (sys.rt.facing w))).1
              rfl rfl
            simp only [apply,hu,hc,if_true,resume,put,retryMet,countsRetry,pendingRetries]
            exact h
          | cons phase rest =>
            have h := quiet (.cancel session reason rest) rfl rfl
            simp only [apply,hu,hc,if_true,resume,put,retryMet,countsRetry,pendingRetries]
            exact h
        | recovery session plan =>
          have h := quiet (.recovered ((Runtime.endRecovery w session plan (sys.rt.facing w)).1.map
            fun _ => plan)) rfl rfl
          simp only [apply,hu,hc,if_true,resume,put,retryMet,countsRetry,pendingRetries]
          exact h
        | stopping =>
          have h := quiet (ended (Runtime.endShutdown w (sys.rt.facing w))).1 rfl rfl
          simp only [apply,hu,hc,if_true,resume,put,retryMet,countsRetry,pendingRetries]
          exact h
        | ran | drove | created | recovered | ended =>
          simp only [apply,hu,hc,if_true,resume,retryMet,countsRetry]
          rfl
    · simp only [apply,hu,retryMet,countsRetry,Bool.false_eq_true,if_false,false_and,Bool.toNat_false]
      split <;> rfl

/-- The counter goes up with the count of a retry and is otherwise left alone. -/
theorem apply_retriesUsed (he : e.inProcess) (hs : sys.rt.find sid=some s) :
    ∃ s',(sys.apply e).rt.find sid=some s' ∧ s'.sessionRetriesUsed=s.sessionRetriesUsed+
      UInt32.ofNat (sys.countsRetry sid e).toNat := by
  cases hc : sys.countsRetry sid e with
  | true =>
    cases e with
    | call command w =>
      obtain ⟨hu,hp⟩ := Bool.and_eq_true_iff.1 hc
      obtain ⟨pid,_,hrt⟩ := Command.start_pendingRetry hp
      refine ⟨s.counted,?_,rfl⟩
      simp only [apply,hu,if_true]
      rw [hrt]
      have hf : ((sys.rt.facing w).modifySession sid (·.counted)).find sid=_ :=
        Runtime.find_modified rfl
      rw [hf,if_pos rfl,show (sys.rt.facing w).find sid=some s from hs]
      rfl
    | resume index w => cases hc
    | restart options adapters w => cases hc
  | false =>
    suffices h : ∃ s',(sys.apply e).rt.find sid=some s' ∧
        s'.sessionRetriesUsed=s.sessionRetriesUsed by
      obtain ⟨s',hs',hr⟩ := h
      exact ⟨s',hs',hr.trans (by simp)⟩
    rcases @apply_ticks sys e he with ht | ⟨w,who,pid,hu,rfl⟩ | ⟨w,run,hr,hpc⟩
    · obtain ⟨s',hs',h⟩ := ht sid.value s hs
      exact ⟨s',hs',h.retries⟩
    · have hrt : (sys.apply (.call (.retryPhase who pid) w)).rt=
          (Runtime.beginRetry who pid (sys.rt.facing w)).2 := by
        rw [← start_retry_rt w]
        simp only [apply,hu,if_true]
      rw [hrt]
      rcases Runtime.beginRetry_spec who pid (sys.rt.facing w) with
        ⟨_,hb⟩ | ⟨_,_,hb⟩ | ⟨_,_,_,_,_,hb⟩
      · rw [hb]
        exact ⟨s,hs,rfl⟩
      · rw [hb]
        exact ⟨s,hs,rfl⟩
      · have hne : who ≠ sid := by
          rintro rfl
          simp [countsRetry,hu,Command.start,hb,Call.pendingRetry] at hc
        have hf : ((sys.rt.facing w).modifySession who (·.counted)).find sid=_ :=
          Runtime.find_modified rfl
        rw [if_neg hne] at hf
        rw [hb]
        exact ⟨s,hf.trans hs,rfl⟩
    · rcases reserve_behind hr hpc with ⟨_,hsame⟩ | ⟨s₀,p,inputs,r,hres,_⟩
      · exact ⟨s,(Runtime.find_of_sessions hsame sid).trans hs,rfl⟩
      · rw [reserves_find hres]
        by_cases hw : run.session=sid
        · have hfound := ((Runtime.admission_iff _ _).1 hres.admitted).session
          cases Option.some.inj (hfound.symm.trans (hw ▸ hs))
          exact ⟨_,if_pos hw,rfl⟩
        · rw [if_neg hw]
          exact ⟨s,hs,rfl⟩

/-- The balance of a run: what was counted was reserved, refused, or is still to be decided. -/
theorem run_balance {events : List Event} (hp : ∀ e ∈ events,e.inProcess)
    (hs : sys.rt.find sid=some s) :
    ∃ s',(sys.run events).rt.find sid=some s' ∧
      s'.sessionRetriesUsed+UInt32.ofNat (sys.pendingRetries sid)=s.sessionRetriesUsed+
        UInt32.ofNat (reservedRetries sid sys events+refusedRetries sid sys events+
          (sys.run events).pendingRetries sid) := by
  induction events generalizing sys s with
  | nil => exact ⟨s,hs,by simp [reservedRetries,refusedRetries,run]⟩
  | cons e events ih =>
    obtain ⟨he,hp⟩ := List.forall_mem_cons.1 hp
    obtain ⟨s₁,hs₁,hr⟩ := apply_retriesUsed he hs
    obtain ⟨s',hs',hb⟩ := ih hp hs₁
    refine ⟨s',hs',?_⟩
    have hpend := @apply_pendingRetries sys sid e he
    have hmet : (sys.retryMet sid e).toList.length=
        (if sys.retryMet sid e=some true then 1 else 0)+
          (if sys.retryMet sid e=some false then 1 else 0) := by
      rcases sys.retryMet sid e with _ | _ | _ <;> rfl
    have hpend : sys.pendingRetries sid+(sys.countsRetry sid e).toNat=
        (sys.apply e).pendingRetries sid+(sys.retryMet sid e).toList.length := hpend.symm
    rw [hmet] at hpend
    have hpend := congrArg UInt32.ofNat hpend
    show _=s.sessionRetriesUsed+UInt32.ofNat (reservedRetries sid sys (e::events)+
      refusedRetries sid sys (e::events)+((sys.apply e).run events).pendingRetries sid)
    simp only [reservedRetries,refusedRetries,UInt32.ofNat_add] at hb hpend hr ⊢
    grind

/-- The counter is the number of retries reserved exactly when no counted retry was refused its
reservation and none is still to be decided. -/
theorem retries_accounted_iff {events : List Event} (hp : ∀ e ∈ events,e.inProcess)
    (hs : sys.rt.find sid=some s) (h0 : sys.pendingRetries sid=0) :
    (∃ s',(sys.run events).rt.find sid=some s' ∧ s'.sessionRetriesUsed=s.sessionRetriesUsed+
      UInt32.ofNat (reservedRetries sid sys events)) ↔
    UInt32.ofNat (refusedRetries sid sys events+(sys.run events).pendingRetries sid)=0 := by
  have ⟨s',hs',hb⟩ := run_balance hp hs
  rw [h0] at hb
  simp only [UInt32.ofNat_add] at hb ⊢
  constructor
  · rintro ⟨t,ht,hr⟩
    rw [hs'] at ht
    cases ht
    grind
  · intro h
    exact ⟨s',hs',by grind⟩

end System

namespace Sample

/-- The base of the workspaces cannot be written to. -/
def unhoused : World := { world with workspace := .error ⟨.permissionDenied,ascii
  "workspace could not be created"⟩ }

/-- The first phase crashes and its retry gets no workspace. -/
def refused : List Event :=
  .call (.runPhase ⟨1⟩ ⟨1⟩) crashed::List.replicate 5 (.resume 2 crashed)++
    [.call (.retryPhase ⟨1⟩ ⟨1⟩) world,.resume 3 unhoused]

end Sample

namespace System

/-- A retry that is carried out. -/
theorem retries_accounted_of_retrying : ∃ s s',Sample.twin.rt.find ⟨1⟩=some s ∧
    (Sample.twin.run Sample.retrying).rt.find ⟨1⟩=some s' ∧
    s'.sessionRetriesUsed=s.sessionRetriesUsed+
      UInt32.ofNat (reservedRetries ⟨1⟩ Sample.twin Sample.retrying) := by
  have hs : (Sample.twin.rt.find ⟨1⟩).isSome := by decide +kernel
  have ⟨s,hs⟩ := Option.isSome_iff_exists.1 hs
  have ⟨s',hs',hr⟩ := (retries_accounted_iff Sample.retrying_inProcess hs (by decide +kernel)).2
    (by decide +kernel)
  exact ⟨s,s',hs,hs',hr⟩

/-- The retry is refused its workspace and stays counted. -/
theorem not_retries_accounted_of_refused :
    (Sample.twin.rt.find ⟨1⟩).map (·.sessionRetriesUsed)=some 0 ∧
    reservedRetries ⟨1⟩ Sample.twin Sample.refused=0 ∧
    ((Sample.twin.run Sample.refused).rt.find ⟨1⟩).map (·.sessionRetriesUsed)=some 1 ∧
    (Sample.twin.run Sample.refused).pendingRetries ⟨1⟩=0 := by decide +kernel

end System

end CompilerFabric
