import CompilerFabric.Law.Accounting
import CompilerFabric.Law.Reproducible

namespace CompilerFabric

open Base Base.Action

namespace System

/-- The event reserves the phase. -/
def reserves (sys : System) (sid : CompilerSessionId) (pid : CompilerPhaseId) : Event → Bool
  | .resume index w => match sys.calls[index]? with
      | some (.phase run) => sys.up && run.session=sid && run.phase=pid && run.pc=.reserve &&
          (sys.rt.admission run.session run.phase run.isRetry).toBool && w.workspace.toBool
      | _ => false
  | _ => false

/-- How many attempts of the phase a run reserves. -/
def reservedAttempts (sid : CompilerSessionId) (pid : CompilerPhaseId) : System → List Event → Nat
  | _,[] => 0
  | sys,e::events => (sys.reserves sid pid e).toNat+reservedAttempts sid pid (sys.apply e) events

/-- What the policy of the session is registered with at the generation the session is bound to. -/
def PolicyOf (sys : System) (events : List Event) (s : CompilerSession) (spec : PolicySpec) : Prop :=
  ∃ n e,(sys.run (events.take n)).rt.policies.find s.policy.id=some e ∧
    e.generation=s.policy.generation ∧ e.spec=spec

/-- No attempt of the session fails because its authority moved. -/
def Uninvalidated (sys : System) (events : List Event) (sid : CompilerSessionId) : Prop :=
  ∀ n pid p,(sys.run (events.take n)).phase sid pid=some p → p.failure ≠ .authorityInvalidated

/-- The attempts of a phase and the retries of a session keep to the ceilings of its policy. -/
def WithinCeilings (sys : System) (events : List Event) : Prop :=
  ∀ n sid s spec,(sys.run (events.take n)).rt.find sid=some s → sys.PolicyOf events s spec →
    sys.Uninvalidated events sid →
    reservedRetries sid sys (events.take n) ≤ spec.maxRetriesPerSession.toNat ∧
    ∀ pid,reservedAttempts sid pid sys (events.take n) ≤ spec.maxRetriesPerPhase.toNat+1

/-- A retry is decided by a policy that has not moved backwards, and reserved while its phase has
the attempts it was decided on. Any other run is the first of its phase. -/
def watched (sys : System) : Event → Bool
  | .call (.retryPhase sid _) _ => (sys.rt.find sid).all fun s => guardedPolicy s &&
      (sys.rt.policies.find s.policy.id).any (s.policy.generation.value ≤ ·.generation.value)
  | .resume index _ => match sys.calls[index]? with
      | some (.phase run) => run.pc ≠ .reserve ||
          (sys.rt.phase run.session run.phase).all fun p =>
            if run.isRetry then run.retry.any (·.attemptsUsed.toNat=p.attempts.length)
            else p.attempts=[]
      | _ => true
  | _ => true

end System

namespace Runtime

variable {rt t : Runtime} {s s' : CompilerSession} {p : PhaseRecord} {f : PolicySpec → Prop}

/-- As long as the policy the session is bound to is the registered one, it meets `f`. -/
structure Bounds (rt : Runtime) (s : CompilerSession) (f : PolicySpec → Prop) : Prop where
  guarded : System.guardedPolicy s
  entry : ∃ e,rt.policies.find s.policy.id=some e ∧
    s.policy.generation.value ≤ e.generation.value ∧ (e.generation=s.policy.generation → f e.spec)

theorem advances_spec {e e' : PolicyIdentity} (h : e.Advances e')
    (hg : e'.generation.value ≤ e.generation.value) (hm : e'.generation.value ≠ Generation.kMax) :
    e'.generation=e.generation ∧ e'.spec=e.spec := by
  rcases h with h | h | h
  · exact h
  · exact absurd hg (UInt64.not_le.2 h)
  · exact absurd h hm

theorem Bounds.keeps (h : rt.Bounds s f) (ha : rt.policies.Advances t.policies)
    (hs : s'.policy=s.policy) : t.Bounds s' f := by
  obtain ⟨hg,e,he,hle,hf⟩ := h
  obtain ⟨e',he',hadv⟩ := ha _ e he
  have hguard : System.guardedPolicy s' := by
    unfold System.guardedPolicy at hg ⊢
    rwa [hs]
  refine ⟨hguard,e',hs ▸ he',?_,?_⟩
  · rw [hs]
    exact UInt64.le_trans hle (advances_le hadv)
  · intro hgen
    rw [hs] at hgen
    have hm : e'.generation.value ≠ Generation.kMax := by
      rw [hgen]
      exact of_decide_eq_true (Bool.and_eq_true_iff.1 hg).2
    obtain ⟨heq,hspec⟩ := advances_spec hadv (hgen ▸ hle) hm
    rw [hspec]
    exact hf (heq ▸ hgen)

theorem retryDecision_attemptsUsed (rt : Runtime) (s : CompilerSession) (p : PhaseRecord) :
    (rt.retryDecision s p).attemptsUsed=UInt32.ofNat p.attempts.length := by
  unfold retryDecision evaluateRetry
  dsimp only
  repeat' split
  all_goals rfl

/-- A permission without an invalidated authority keeps below both ceilings. -/
theorem retryDecision_below (hl : (rt.retryDecision s p).legal)
    (hf : p.failure ≠ .authorityInvalidated) {e : PolicyIdentity}
    (he : rt.policies.find s.policy.id=some e) :
    (rt.retryDecision s p).attemptsUsed ≤ e.spec.maxRetriesPerPhase ∧
      s.sessionRetriesUsed<e.spec.maxRetriesPerSession := by
  rw [retryDecision_attemptsUsed]
  simp only [retryDecision,he,Option.map_some,Option.getD_some,evaluateRetry,if_neg hf] at hl
  split at hl
  · cases hl
  split at hl
  · cases hl
  split at hl
  · cases hl
  split at hl
  · cases hl
  split at hl
  · cases hl
  split at hl
  · cases hl
  · next hphase =>
    split at hl
    · cases hl
    · next hsession => exact ⟨UInt32.not_lt.1 hphase,UInt32.not_le.1 hsession⟩

theorem reserved_attempts {r : Reservation} {inputs : List (Ref .intermediate)} {isRetry : Bool}
    {now : UInt64} : (p.reserved s r inputs isRetry now).attempts.length=p.attempts.length+1 := by
  obtain ⟨_,_,hr⟩ := reserved_frame r p s inputs isRetry now
  rw [hr]
  exact List.length_append

/-- What is reserved is reserved under the policy that is registered. -/
theorem reserveVerdict_policy (h : rt.reserveVerdict s p=.valid) (hp : s.policy.present)
    {e : PolicyIdentity} (he : rt.policies.find s.policy.id=some e) :
    e.generation=s.policy.generation := by
  have heq := (compareAuthority_valid h).policy hp
  simp only [observe,he,authorityFromSession] at heq
  exact (congrArg Ref.generation heq).symm

end Runtime

namespace System

variable {sys : System} {sid : CompilerSessionId} {pid : CompilerPhaseId} {e : Event}
  {s : CompilerSession} {events : List Event}

theorem reservedAttempts_snoc : reservedAttempts sid pid sys (events++[e])=
    reservedAttempts sid pid sys events+((sys.run events).reserves sid pid e).toNat := by
  induction events generalizing sys with
  | nil => simp [reservedAttempts,run]
  | cons a events ih =>
    rw [List.cons_append,reservedAttempts,ih,reservedAttempts,Nat.add_assoc]
    rfl

theorem reservedRetries_snoc : reservedRetries sid sys (events++[e])=
    reservedRetries sid sys events+(if (sys.run events).retryMet sid e=some true then 1 else 0) := by
  induction events generalizing sys with
  | nil =>
    simp only [List.nil_append,reservedRetries,run,List.foldl_nil,Nat.zero_add,Nat.add_zero]
    rfl
  | cons a events ih =>
    rw [List.cons_append,reservedRetries,ih,reservedRetries,Nat.add_assoc]
    rfl

theorem reserves_reserving (h : sys.reserves sid pid e=true) :
    ∃ w run s p inputs r,sys.phase sid pid=some p ∧ sys.rt.find sid=some s ∧
      sys.Reserving e sid pid p w run s inputs r := by
  unfold reserves at h
  split at h
  · next index w =>
    split at h
    · next run hc =>
      simp only [Bool.and_eq_true,decide_eq_true_eq] at h
      obtain ⟨⟨⟨⟨⟨hu,rfl⟩,rfl⟩,hpc⟩,ha⟩,hw⟩ := h
      have hr : sys.Runs (.resume index w) w run := ⟨hu,index,rfl,hc⟩
      have hrt := hr.reserve hpc
      cases hx : Runtime.reserve w run.session run.phase run.isRetry (sys.rt.facing w) with
      | mk result t =>
        rw [hx] at hrt
        have hrt : (sys.apply (.resume index w)).rt=t := hrt
        rcases Runtime.reserve_spec w _ _ hx with ⟨_,_,_,hn⟩ | ⟨s,p,inputs,r,hres,_⟩
        · rcases hn with hn | hn
          · rw [show sys.rt.admission run.session run.phase run.isRetry=_ from hn] at ha
            cases ha
          · rw [hn] at hw
            cases hw
        · subst hrt
          have hadm := (Runtime.admission_iff _ _).1 hres.admitted
          have hs : sys.rt.find run.session=some s := hadm.session
          exact ⟨w,run,s,p,inputs,r,Option.bind_eq_some_iff.2 ⟨s,hs,hadm.phase⟩,hs,hr,hpc,rfl,rfl,hres⟩
    · cases h
  · cases h

theorem countsRetry_spec (h : sys.countsRetry sid e=true) : ∃ w pid s p,sys.up ∧
    e=.call (.retryPhase sid pid) w ∧ sys.rt.find sid=some s ∧ s.findPhase pid=some p ∧
    (sys.rt.retryDecision s p).legal := by
  cases e with
  | call command w =>
    obtain ⟨hu,hc⟩ := Bool.and_eq_true_iff.1 h
    obtain ⟨pid,rfl,_⟩ := Command.start_pendingRetry hc
    rcases Runtime.beginRetry_spec sid pid (sys.rt.facing w) with
      ⟨_,hb⟩ | ⟨_,_,hb⟩ | ⟨s,p,hs,hp,hl,_⟩
    · simp [Command.start,hb,Call.pendingRetry] at hc
    · simp [Command.start,hb,Call.pendingRetry] at hc
    · exact ⟨w,pid,s,p,hu,rfl,hs,hp,hl⟩
  | resume index w => cases h
  | restart options adapters w => cases h

/-- What a run has made of the ceilings of a session. -/
structure Ceiled (first : System) (past : List Event) (sid : CompilerSessionId) : Prop where
  /-- A counted retry is one the ceiling of its phase lets pass. -/
  pending : ∀ (i : Nat) (run : PhaseRun),(first.run past).calls[i]?=some (.phase run) → run.session=sid →
    run.isRetry → run.pc=.reserve → ∃ d s,run.retry=some d ∧
      (first.run past).rt.find sid=some s ∧
      (first.run past).rt.Bounds s (d.attemptsUsed ≤ ·.maxRetriesPerPhase)
  retries : reservedRetries sid first past+(first.run past).pendingRetries sid=0 ∨
    ∃ s,(first.run past).rt.find sid=some s ∧
      reservedRetries sid first past+(first.run past).pendingRetries sid ≤
        s.sessionRetriesUsed.toNat ∧
      (first.run past).rt.Bounds s (s.sessionRetriesUsed ≤ ·.maxRetriesPerSession)
  attempts : ∀ pid,reservedAttempts sid pid first past=0 ∨
    ∃ p,(first.run past).phase sid pid=some p ∧
      reservedAttempts sid pid first past ≤ p.attempts.length

section Step

variable {first : System} {past : List Event}

/-- A session keeps its policy from one event to the next. -/
theorem apply_policy (he : e.inProcess) (hs : sys.rt.find sid=some s) :
    ∃ s',(sys.apply e).rt.find sid=some s' ∧ s'.policy=s.policy := by
  obtain ⟨s',hs',hk⟩ := (sys.apply_keeps he).sessions sid.value s hs
  exact ⟨s',hs',hk.policy⟩

theorem Ceiled.pending_step (h : Ceiled first past sid) (he : e.inProcess)
    (hw : (first.run past).watched e)
    (hq : ∀ pid p,(first.run past).phase sid pid=some p → p.failure ≠ .authorityInvalidated) :
    ∀ (i : Nat) (run : PhaseRun),((first.run past).apply e).calls[i]?=some (.phase run) → run.session=sid →
      run.isRetry → run.pc=.reserve → ∃ d s,run.retry=some d ∧
        ((first.run past).apply e).rt.find sid=some s ∧
        ((first.run past).apply e).rt.Bounds s (d.attemptsUsed ≤ ·.maxRetriesPerPhase) := by
  intro i run hrun hsid hretry hpc
  have hadv := ((first.run past).apply_keeps he).policies
  rcases apply_phaseRun hrun with hold | ⟨w,before,_,_,_,_,hg⟩ | ⟨_,_,hst⟩
  · obtain ⟨d,s,hd,hs,hb⟩ := h.pending i run hold hsid hretry hpc
    obtain ⟨s',hs',hp⟩ := apply_policy he hs
    exact ⟨d,s',hd,hs',hb.keeps hadv hp⟩
  · rw [hpc] at hg
    cases hg
  · cases hst with
    | run | round => cases hretry
    | direct => cases hpc
    | @retry session phase w decision t hb =>
      obtain rfl : session=sid := hsid
      rcases Runtime.beginRetry_spec session phase ((first.run past).rt.facing w) with
        ⟨_,hn⟩ | ⟨_,_,hn⟩ | ⟨s,p,hs,hp,hl,hn⟩
      · rw [hn] at hb
        cases hb
      · rw [hn] at hb
        cases hb
      · rw [hn] at hb
        obtain ⟨hb,_⟩ := Prod.mk.inj hb
        obtain ⟨rfl,_⟩ := Prod.mk.inj (Except.ok.inj hb)
        have hs : (first.run past).rt.find session=some s := hs
        obtain ⟨s',hs',hpol⟩ := apply_policy he hs
        refine ⟨_,s',rfl,hs',?_⟩
        simp only [watched,hs,Option.all_some,Bool.and_eq_true,Option.any_eq_true] at hw
        obtain ⟨hguard,entry,hentry,hle⟩ := hw
        have hf := hq phase p (Option.bind_eq_some_iff.2 ⟨s,hs,hp⟩)
        have hbound : (first.run past).rt.Bounds s
            (((first.run past).rt.retryDecision s p).attemptsUsed ≤ ·.maxRetriesPerPhase) :=
          ⟨hguard,entry,hentry,of_decide_eq_true hle,fun _ =>
            (Runtime.retryDecision_below hl hf hentry).1⟩
        exact hbound.keeps hadv hpol

theorem Ceiled.retries_step (h : Ceiled first past sid) (he : e.inProcess)
    (hw : (first.run past).watched e)
    (hq : ∀ pid p,(first.run past).phase sid pid=some p → p.failure ≠ .authorityInvalidated) :
    reservedRetries sid first (past++[e])+((first.run past).apply e).pendingRetries sid=0 ∨
    ∃ s,((first.run past).apply e).rt.find sid=some s ∧
      reservedRetries sid first (past++[e])+((first.run past).apply e).pendingRetries sid ≤
        s.sessionRetriesUsed.toNat ∧
      ((first.run past).apply e).rt.Bounds s (s.sessionRetriesUsed ≤ ·.maxRetriesPerSession) := by
  have hadv := ((first.run past).apply_keeps he).policies
  have hpend := @apply_pendingRetries (first.run past) sid e he
  have hle : reservedRetries sid first (past++[e])+((first.run past).apply e).pendingRetries sid ≤
      reservedRetries sid first past+(first.run past).pendingRetries sid+
        ((first.run past).countsRetry sid e).toNat := by
    rw [reservedRetries_snoc]
    revert hpend
    cases (first.run past).retryMet sid e with
    | none =>
      simp only [Option.toList_none,List.length_nil,reduceCtorEq,if_false]
      omega
    | some met =>
      simp only [Option.toList_some,List.length_singleton]
      split <;> omega
  cases hc : (first.run past).countsRetry sid e with
  | false =>
    rw [hc] at hle
    rcases h.retries with hz | ⟨s,hs,hused,hb⟩
    · exact .inl (Nat.le_zero.1 (hz ▸ hle))
    · obtain ⟨s',hs',hr⟩ := apply_retriesUsed he hs
      obtain ⟨s'',hs'',hpol⟩ := apply_policy he hs
      obtain rfl : s'=s'' := Option.some.inj (hs'.symm.trans hs'')
      have hr : s'.sessionRetriesUsed=s.sessionRetriesUsed := by simpa [hc] using hr
      refine .inr ⟨s',hs',hr ▸ Nat.le_trans hle hused,?_⟩
      rw [hr]
      exact hb.keeps hadv hpol
  | true =>
    rw [hc] at hle
    obtain ⟨w,pid,s,p,_,rfl,hs,hp,hl⟩ := countsRetry_spec hc
    obtain ⟨s',hs',hr⟩ := apply_retriesUsed he hs
    obtain ⟨s'',hs'',hpol⟩ := apply_policy he hs
    obtain rfl : s'=s'' := Option.some.inj (hs'.symm.trans hs'')
    simp only [watched,hs,Option.all_some,Bool.and_eq_true,Option.any_eq_true] at hw
    obtain ⟨hguard,entry,hentry,hgen⟩ := hw
    have hf := hq pid p (Option.bind_eq_some_iff.2 ⟨s,hs,hp⟩)
    have hlt := (Runtime.retryDecision_below hl hf hentry).2
    have hr : s'.sessionRetriesUsed=s.sessionRetriesUsed+1 := by simpa [hc] using hr
    have hn : (s.sessionRetriesUsed+1).toNat=s.sessionRetriesUsed.toNat+1 := by
      have hlt := UInt32.lt_iff_toNat_lt.1 hlt
      have hmax := entry.spec.maxRetriesPerSession.toNat_lt
      rw [UInt32.toNat_add,UInt32.toNat_one]
      omega
    refine .inr ⟨s',hs',?_,?_⟩
    · rw [hr,hn]
      refine Nat.le_trans hle (Nat.succ_le_succ ?_)
      rcases h.retries with hz | ⟨s₀,hs₀,hused,_⟩
      · rw [hz]
        exact Nat.zero_le _
      · cases Option.some.inj (hs₀.symm.trans hs)
        exact hused
    · have hb : (first.run past).rt.Bounds s
          (s.sessionRetriesUsed+1 ≤ ·.maxRetriesPerSession) := by
        refine ⟨hguard,entry,hentry,of_decide_eq_true hgen,fun _ => ?_⟩
        rw [UInt32.le_iff_toNat_le,hn]
        exact UInt32.lt_iff_toNat_lt.1 hlt
      rw [hr]
      exact hb.keeps hadv hpol

theorem Ceiled.attempts_step (h : Ceiled first past sid) (he : e.inProcess)
    (pid : CompilerPhaseId) : reservedAttempts sid pid first (past++[e])=0 ∨
    ∃ p,((first.run past).apply e).phase sid pid=some p ∧
      reservedAttempts sid pid first (past++[e]) ≤ p.attempts.length := by
  rw [reservedAttempts_snoc]
  cases hr : (first.run past).reserves sid pid e with
  | true =>
    obtain ⟨w,run,s,p,inputs,r,hp,_,hres⟩ := reserves_reserving hr
    refine .inr ⟨_,hres.reserves.record,?_⟩
    rw [Runtime.reserved_attempts]
    refine Nat.succ_le_succ ?_
    rcases h.attempts pid with hz | ⟨p₀,hp₀,hle⟩
    · rw [hz]
      exact Nat.zero_le _
    · cases Option.some.inj (hp₀.symm.trans hp)
      exact hle
  | false =>
    rcases h.attempts pid with hz | ⟨p,hp,hle⟩
    · exact .inl hz
    · obtain ⟨p',hp',hcase⟩ := apply_record he hp
      refine .inr ⟨p',hp',Nat.le_trans hle ?_⟩
      rcases hcase with hst | ⟨w,run,s,inputs,r,_,rfl⟩
      · have hlen := congrArg List.length hst.attempts
        rw [List.length_map,List.length_map] at hlen
        exact Nat.le_of_eq hlen.symm
      · rw [Runtime.reserved_attempts]
        exact Nat.le_succ _

end Step

/-- What holds at the start of a process holds after every run of it. -/
theorem run_ceiled {first : System} {past : List Event} (h0 : first.calls=[])
    (hp : ∀ e ∈ past,e.inProcess) (hw : along watched first past)
    (hq : first.Uninvalidated past sid) : Ceiled first past sid := by
  induction past using List.reverseRecOn with
  | nil =>
    constructor
    · intro i run hrun
      simp [System.run,h0] at hrun
    · left
      simp [System.run,reservedRetries,pendingRetries,h0]
    · intro pid
      exact .inl rfl
  | append_singleton past e ih =>
    rw [along_snoc,Bool.and_eq_true] at hw
    have he := hp e (by simp)
    have hquiet : first.Uninvalidated past sid := by
      intro n pid p hph
      by_cases hn : n ≤ past.length
      · refine hq n pid p ?_
        rwa [List.take_append_of_le_length hn]
      · refine hq past.length pid p ?_
        rwa [List.take_left,← List.take_of_length_le (Nat.le_of_not_le hn)]
    have h := ih (fun a ha => hp a (by simp [ha])) hw.1 hquiet
    have hnow : ∀ pid p,(first.run past).phase sid pid=some p →
        p.failure ≠ .authorityInvalidated := by
      intro pid p hph
      refine hquiet past.length pid p ?_
      rwa [List.take_length]
    constructor
    · rw [run_snoc]
      exact h.pending_step he hw.2 hnow
    · rw [run_snoc]
      exact h.retries_step he hw.2 hnow
    · rw [run_snoc]
      exact h.attempts_step he

theorem run_advances {n m : Nat} (hp : ∀ e ∈ events,e.inProcess) (hnm : n ≤ m) :
    (sys.run (events.take n)).rt.policies.Advances (sys.run (events.take m)).rt.policies := by
  induction m,hnm using Nat.le_induction with
  | base => exact Std.Refl.refl _
  | succ m _ ih =>
    rw [run_take_succ]
    cases he : events[m]? with
    | none => exact ih
    | some e => exact IsTrans.trans _ _ _ ih (apply_keeps _ (hp e (List.mem_of_getElem? he))).policies

theorem run_find {n m : Nat} (hp : ∀ e ∈ events,e.inProcess) (hnm : n ≤ m)
    (hs : (sys.run (events.take n)).rt.find sid=some s) :
    ∃ s',(sys.run (events.take m)).rt.find sid=some s' ∧ s'.policy=s.policy := by
  induction m,hnm using Nat.le_induction with
  | base => exact ⟨s,hs,rfl⟩
  | succ m _ ih =>
    rw [run_take_succ]
    cases he : events[m]? with
    | none => exact ih
    | some e =>
      obtain ⟨s',hs',hpol⟩ := ih
      obtain ⟨s'',hs'',hpol'⟩ := apply_policy (hp e (List.mem_of_getElem? he)) hs'
      exact ⟨s'',hs'',hpol'.trans hpol⟩

/-- A session is bound to one policy, whenever it is looked at. -/
theorem run_policy {n m : Nat} {s' : CompilerSession} (hp : ∀ e ∈ events,e.inProcess)
    (hs : (sys.run (events.take n)).rt.find sid=some s)
    (hs' : (sys.run (events.take m)).rt.find sid=some s') : s'.policy=s.policy := by
  rcases Nat.le_total n m with hle | hle
  · obtain ⟨t,ht,hpol⟩ := run_find hp hle hs
    cases Option.some.inj (ht.symm.trans hs')
    exact hpol
  · obtain ⟨t,ht,hpol⟩ := run_find hp hle hs'
    cases Option.some.inj (ht.symm.trans hs)
    exact hpol.symm

/-- The session's policy is one, as long as its generations can still be told apart. -/
theorem PolicyOf.unique {spec spec' : PolicySpec} (hp : ∀ e ∈ events,e.inProcess)
    (hg : guardedPolicy s) (h : sys.PolicyOf events s spec) (h' : sys.PolicyOf events s spec') :
    spec=spec' := by
  obtain ⟨n,e,he,hgen,rfl⟩ := h
  obtain ⟨m,e',he',hgen',rfl⟩ := h'
  have hm := of_decide_eq_true (Bool.and_eq_true_iff.1 hg).2
  have same {n m : Nat} {e e' : PolicyIdentity} (hle : n ≤ m)
      (he : (sys.run (events.take n)).rt.policies.find s.policy.id=some e)
      (he' : (sys.run (events.take m)).rt.policies.find s.policy.id=some e')
      (hgen : e.generation=s.policy.generation) (hgen' : e'.generation=s.policy.generation) :
      e'.spec=e.spec := by
    obtain ⟨t,ht,hadv⟩ := run_advances hp hle _ e he
    cases Option.some.inj (ht.symm.trans he')
    refine (Runtime.advances_spec hadv ?_ ?_).2
    · rw [hgen,hgen']
      exact UInt64.le_refl _
    · rwa [hgen']
  rcases Nat.le_total n m with hle | hle
  · exact (same hle he he' hgen hgen').symm
  · exact same hle he' he hgen' hgen

/-- The count is within what a policy of the session allows. -/
def Limited (sys : System) (events : List Event) (sid : CompilerSessionId) (count : Nat)
    (limit : PolicySpec → Nat) : Prop :=
  ∃ n s spec,(sys.run (events.take n)).rt.find sid=some s ∧ guardedPolicy s ∧
    sys.PolicyOf events s spec ∧ count ≤ limit spec

theorem Limited.le {count : Nat} {limit : PolicySpec → Nat} {spec : PolicySpec} {n : Nat}
    (h : sys.Limited events sid count limit) (hp : ∀ e ∈ events,e.inProcess)
    (hs : (sys.run (events.take n)).rt.find sid=some s) (ho : sys.PolicyOf events s spec) :
    count ≤ limit spec := by
  obtain ⟨m,s',spec',hs',hg,ho',hle⟩ := h
  have hpol := run_policy hp hs' hs
  have ho : sys.PolicyOf events s' spec := by
    unfold PolicyOf at ho ⊢
    rwa [← hpol]
  rwa [PolicyOf.unique hp hg ho ho']

section Reserve

variable {first : System} {past : List Event}

/-- A retry is reserved under the policy it was decided by, and a first attempt is one. -/
theorem Ceiled.reserve_attempts (h : Ceiled first past sid) (hw : (first.run past).watched e)
    (hr : (first.run past).reserves sid pid e=true) :
    reservedAttempts sid pid first past=0 ∨
    ∃ s entry,(first.run past).rt.find sid=some s ∧ guardedPolicy s ∧
      (first.run past).rt.policies.find s.policy.id=some entry ∧
      entry.generation=s.policy.generation ∧
      reservedAttempts sid pid first past ≤ entry.spec.maxRetriesPerPhase.toNat := by
  obtain ⟨w,run,s,p,inputs,r,hph,hs,⟨⟨hu,index,rfl,hc⟩,hpc,hsid,hpid,hres⟩⟩ := reserves_reserving hr
  have hadm := (Runtime.admission_iff _ _).1 hres.admitted
  have hcur : (first.run past).rt.reserveVerdict s p=.valid := hadm.current
  have hph' : (first.run past).rt.phase run.session run.phase=some p := by
    rw [hsid,hpid]
    exact hph
  have hw : (if run.isRetry then run.retry.any (·.attemptsUsed.toNat=p.attempts.length)
      else decide (p.attempts=[]))=true := by
    simpa [watched,hc,hpc,hph'] using hw
  rcases h.attempts pid with hz | ⟨p₀,hp₀,hle⟩
  · exact .inl hz
  cases Option.some.inj (hp₀.symm.trans hph)
  by_cases hi : run.isRetry
  · obtain ⟨d,s₀,hd,hs₀,⟨hguard,entry,hentry,_,hf⟩⟩ := h.pending index run hc hsid hi hpc
    cases Option.some.inj (hs₀.symm.trans hs)
    have hgen := Runtime.reserveVerdict_policy hcur (Bool.and_eq_true_iff.1 hguard).1 hentry
    rw [if_pos hi,hd,Option.any_some,decide_eq_true_eq] at hw
    refine .inr ⟨s,entry,hs,hguard,hentry,hgen,?_⟩
    rw [← hw] at hle
    exact Nat.le_trans hle (UInt32.le_iff_toNat_le.1 (hf hgen))
  · rw [if_neg hi,decide_eq_true_eq] at hw
    rw [hw] at hle
    exact .inl (Nat.le_zero.1 hle)

theorem retryMet_reserves (h : sys.retryMet sid e=some true) : ∃ pid,
    sys.reserves sid pid e=true ∧ sys.countsRetry sid e=false := by
  unfold retryMet at h
  split at h
  · next index w =>
    split at h
    · next run hc =>
      split at h
      · next hup =>
        have hmet := Option.some.inj h
        obtain ⟨hu,hpend⟩ := hup
        simp only [Call.pendingRetry,Bool.and_eq_true,decide_eq_true_eq] at hpend
        obtain ⟨⟨rfl,_⟩,hpc⟩ := hpend
        refine ⟨run.phase,?_,rfl⟩
        simpa [reserves,hc,hu,hpc] using hmet
      · cases h
    · cases h
  · cases h

theorem Ceiled.reserve_retries (h : Ceiled first past sid) (he : e.inProcess)
    (hm : (first.run past).retryMet sid e=some true) :
    ∃ s entry,(first.run past).rt.find sid=some s ∧ guardedPolicy s ∧
      (first.run past).rt.policies.find s.policy.id=some entry ∧
      entry.generation=s.policy.generation ∧
      reservedRetries sid first past+1 ≤ entry.spec.maxRetriesPerSession.toNat := by
  obtain ⟨pid,hr,hcount⟩ := retryMet_reserves hm
  have hpend := @apply_pendingRetries (first.run past) sid e he
  rw [hm,hcount] at hpend
  simp only [Option.toList_some,List.length_singleton,Bool.toNat_false,Nat.add_zero] at hpend
  obtain ⟨w,run,s,p,inputs,r,_,hs,hres⟩ := reserves_reserving hr
  have hadm := (Runtime.admission_iff _ _).1 hres.reserves.admitted
  have hcur : (first.run past).rt.reserveVerdict s p=.valid := hadm.current
  rcases h.retries with hz | ⟨s₀,hs₀,hused,⟨hguard,entry,hentry,_,hf⟩⟩
  · omega
  · cases Option.some.inj (hs₀.symm.trans hs)
    have hgen := Runtime.reserveVerdict_policy hcur (Bool.and_eq_true_iff.1 hguard).1 hentry
    have hmax := UInt32.le_iff_toNat_le.1 (hf hgen)
    exact ⟨s,entry,hs,hguard,hentry,hgen,by omega⟩

theorem Uninvalidated.take (h : first.Uninvalidated events sid) (n : Nat) :
    first.Uninvalidated (events.take n) sid := by
  intro m pid p hp
  rw [List.take_take] at hp
  exact h _ pid p hp

theorem run_ceiled_take {n : Nat} (h0 : first.calls=[]) (hp : ∀ e ∈ events,e.inProcess)
    (hw : along watched first events) (hq : first.Uninvalidated events sid) :
    Ceiled first (events.take n) sid :=
  run_ceiled h0 (fun e he => hp e (List.mem_of_mem_take he)) (along_take hw n) (hq.take n)

theorem limited_attempts (h0 : first.calls=[]) (hp : ∀ e ∈ events,e.inProcess)
    (hw : along watched first events) (hq : first.Uninvalidated events sid) (n : Nat) :
    reservedAttempts sid pid first (events.take n) ≤ 1 ∨
    first.Limited events sid (reservedAttempts sid pid first (events.take n))
      (·.maxRetriesPerPhase.toNat+1) := by
  induction n with
  | zero => exact .inl (Nat.zero_le _)
  | succ n ih =>
    rw [List.take_add_one]
    cases he : events[n]? with
    | none =>
      rw [Option.toList_none,List.append_nil]
      exact ih
    | some e =>
      rw [Option.toList_some,reservedAttempts_snoc]
      cases hr : (first.run (events.take n)).reserves sid pid e with
      | false => exact ih
      | true =>
        have hc := @run_ceiled_take sid events first n h0 hp hw hq
        rcases hc.reserve_attempts (along_at hw he) hr with hz | ⟨s,entry,hs,hg,hentry,hgen,hle⟩
        · left
          rw [hz]
          exact Nat.le_refl 1
        · exact .inr ⟨n,s,entry.spec,hs,hg,⟨n,entry,hentry,hgen,rfl⟩,Nat.succ_le_succ hle⟩

theorem limited_retries (h0 : first.calls=[]) (hp : ∀ e ∈ events,e.inProcess)
    (hw : along watched first events) (hq : first.Uninvalidated events sid) (n : Nat) :
    reservedRetries sid first (events.take n)=0 ∨
    first.Limited events sid (reservedRetries sid first (events.take n))
      (·.maxRetriesPerSession.toNat) := by
  induction n with
  | zero => exact .inl rfl
  | succ n ih =>
    rw [List.take_add_one]
    cases he : events[n]? with
    | none =>
      rw [Option.toList_none,List.append_nil]
      exact ih
    | some e =>
      rw [Option.toList_some,reservedRetries_snoc]
      by_cases hm : (first.run (events.take n)).retryMet sid e=some true
      · rw [if_pos hm]
        have hc := @run_ceiled_take sid events first n h0 hp hw hq
        obtain ⟨s,entry,hs,hg,hentry,hgen,hle⟩ :=
          hc.reserve_retries (hp e (List.mem_of_getElem? he)) hm
        exact .inr ⟨n,s,entry.spec,hs,hg,⟨n,entry,hentry,hgen,rfl⟩,hle⟩
      · rw [if_neg hm]
        exact ih

end Reserve

/-- In a process whose retries are reserved on the attempts they were decided on, the ceilings
hold. -/
theorem withinCeilings_of_watched (options : RuntimeOptions) (adapters : List Adapter)
    (file : Bytes) (w : World) {events : List Event} (hp : ∀ e ∈ events,e.inProcess)
    (hw : along watched (boot options adapters file w) events) :
    (boot options adapters file w).WithinCeilings events := by
  have h0 : (boot options adapters file w).calls=[] := rfl
  intro n sid s spec hs ho hq
  constructor
  · rcases limited_retries h0 hp hw hq n with hz | hl
    · rw [hz]
      exact Nat.zero_le _
    · exact hl.le hp hs ho
  · intro pid
    have hattempts : reservedAttempts sid pid _ _ ≤ 1 ∨ _ := limited_attempts h0 hp hw hq n
    rcases hattempts with hz | hl
    · exact Nat.le_trans hz (Nat.le_add_left 1 _)
    · exact hl.le hp hs ho

/-- No phase of the session stands failed because its authority moved. -/
def steady (sid : CompilerSessionId) (sys : System) (_ : Event) : Bool :=
  (sys.rt.find sid).all fun s => s.phases.toList.all (·.2.failure ≠ .authorityInvalidated)

theorem steady_phase {p : PhaseRecord} (h : steady sid sys e)
    (hp : sys.phase sid pid=some p) : p.failure ≠ .authorityInvalidated := by
  obtain ⟨s,hs,hp⟩ := Option.bind_eq_some_iff.1 hp
  rw [steady,hs,Option.all_some,List.all_eq_true] at h
  have hm := Std.ExtTreeMap.mem_toList_iff_getElem?_eq_some.2 hp
  exact of_decide_eq_true (h _ hm)

theorem uninvalidated_of_steady (h : along (steady sid) sys events)
    (hlast : steady sid (sys.run events) e) : sys.Uninvalidated events sid := by
  intro n pid p hp
  by_cases hn : n<events.length
  · exact steady_phase (along_at h (List.getElem?_eq_getElem hn)) hp
  · rw [List.take_of_length_le (Nat.le_of_not_lt hn)] at hp
    exact steady_phase hlast hp

end System

namespace Sample

/-- A process that opens a session of two phases feeding a link. -/
def opening (policy : PolicySpec) : List Event :=
  [.call (.discoverToolchain family) world,
    .call (.createSession { request with policy }) forked]

/-- Two callers are permitted the one retry of a crashed phase, and both reserve it. -/
def raced : List Event :=
  opening { maxRetriesPerPhase := 1 }++.call (.runPhase ⟨1⟩ ⟨1⟩) crashed::
    List.replicate 5 (.resume 2 crashed)++
    [.call (.retryPhase ⟨1⟩ ⟨1⟩) world,.call (.retryPhase ⟨1⟩ ⟨1⟩) world]++
    List.replicate 5 (.resume 3 crashed)++[.resume 4 world]

end Sample

namespace System

/-- A crash and its one retry. -/
theorem withinCeilings_of_retrying : (boot Sample.options [Sample.adapter] []
    Sample.world).WithinCeilings (Sample.opening {}++Sample.retrying) := by
  refine withinCeilings_of_watched _ _ _ _ ?_ (by decide +kernel)
  intro e he
  rcases List.mem_append.1 he with he | he
  · simp only [Sample.opening,List.mem_cons,List.not_mem_nil,or_false] at he
    rcases he with rfl | rfl <;> trivial
  · exact Sample.retrying_inProcess e he

/-- The two retries were decided on the same attempt. -/
theorem not_withinCeilings_of_raced : ¬(boot Sample.options [Sample.adapter] []
    Sample.world).WithinCeilings Sample.raced := by
  intro h
  have hsteady : (boot Sample.options [Sample.adapter] [] Sample.world).Uninvalidated
      Sample.raced ⟨1⟩ :=
    uninvalidated_of_steady (e := .resume 0 Sample.world) (by decide +kernel) (by decide +kernel)
  have hn : reservedAttempts ⟨1⟩ ⟨1⟩ (boot Sample.options [Sample.adapter] [] Sample.world)
      Sample.raced=3 := by decide +kernel
  have hpolicy : ((((boot Sample.options [Sample.adapter] [] Sample.world).run
      Sample.raced).rt.find ⟨1⟩).bind fun s =>
        (((boot Sample.options [Sample.adapter] [] Sample.world).run
          Sample.raced).rt.policies.find s.policy.id).map fun e =>
            (decide (e.generation=s.policy.generation),e.spec.maxRetriesPerPhase))=
      some (true,1) := by decide +kernel
  obtain ⟨s,hs,hpolicy⟩ := Option.bind_eq_some_iff.1 hpolicy
  obtain ⟨entry,hentry,hpolicy⟩ := Option.map_eq_some_iff.1 hpolicy
  obtain ⟨hgen,hmax⟩ := Prod.mk.inj hpolicy
  have hlen := List.take_length (l := Sample.raced)
  obtain ⟨_,hattempts⟩ := h Sample.raced.length ⟨1⟩ s entry.spec (hlen.symm ▸ hs)
    ⟨Sample.raced.length,entry,hlen.symm ▸ hentry,of_decide_eq_true hgen,rfl⟩ hsteady
  have hle := hattempts ⟨1⟩
  rw [hlen,hn,hmax] at hle
  exact absurd hle (by decide)

end System

end CompilerFabric
