import Mathlib.Data.List.Induction
import CompilerFabric.Runtime.Calls

namespace CompilerFabric

open Base Base.Action

/-- The compiler ran to its end and exited with zero. -/
def ExecutionReport.completed (report : ExecutionReport) : Bool :=
  report.executed && report.process.exitedZero

namespace Runtime

/-- The attempt is of a deterministic phase under a policy that requires reproducibility. -/
def contracted (rt : Runtime) (r : Reservation) : Bool :=
  rt.reproducibilityRequired r.session &&
    (rt.find r.session).any fun s =>
      (rt.findAdapterByName s.adapterName).any (r.kind ∈ ·.deterministicPhases)

end Runtime

namespace System

variable (sys : System) (events : List Event) (r : Reservation)

/-- The `n`-th event is the next locked part of a phase run. -/
def TookAt (n : Nat) (w : World) (run : PhaseRun) : Prop :=
  ∃ e,events[n]?=some e ∧ (sys.run (events.take n)).Runs e w run

/-- An execution of the attempt completed with these outputs. -/
def Executed (n : Nat) (outputs : List OutputDescriptor) : Prop :=
  ∃ w run report,sys.TookAt events n w run ∧ run.pc=.execute r ∧ w.execution=.ok report ∧
    report.completed ∧ report.outputs=outputs

/-- A later execution of the attempt completed, with the same set of outputs. -/
def Reproduced : Prop :=
  ∃ n outputs m w run report second,sys.Executed events r n outputs ∧ n < m ∧
    sys.TookAt events m w run ∧ run.pc=.verify r report ∧ w.secondExecution=.ok second ∧
    second.completed ∧ outputSetDigest second.outputs=outputSetDigest outputs

/-- A phase becomes COMMITTED only in the commit of an attempt that, where the contract asks for
it, two completed executions reproduced. -/
def Reproducible : Prop := ∀ n e sid pid p p',events[n]?=some e → e.inProcess →
  (sys.run (events.take n)).phase sid pid=some p → p.state ≠ .committed →
  (sys.run (events.take (n+1))).phase sid pid=some p' → p'.state=.committed →
  ∃ w run r report,(sys.run (events.take n)).Runs e w run ∧ run.pc=.commit r report ∧
    r.session=sid ∧ r.phase=pid ∧ r.phaseGeneration=p.generation ∧
    r.invocation=p.activeInvocation ∧
    ((sys.run (events.take n)).rt.contracted r → sys.Reproduced (events.take n) r)

/-- The session names its policy, at a generation another one can follow. -/
def guardedPolicy (s : CompilerSession) : Bool :=
  s.policy.present && s.policy.generation.value ≠ Generation.kMax

/-- No `commit_phase` comes to the commit of an attempt under the contract; records stand under their
own identity, and no generation counter is exhausted. -/
def indirect : Event → Bool
  | .resume index _ => match sys.calls[index]? with
      | some (.phase run) => match run.pc with
          | .reserve => (sys.rt.phase run.session run.phase).all
              (·.generation.value ≠ Generation.kMax)
          | .commit r _ => !(run.direct && sys.rt.contracted r) &&
              (sys.rt.phase r.session r.phase).all (·.id=r.phase) &&
              (sys.rt.find r.session).all guardedPolicy
          | _ => true
      | _ => true
  | _ => true

end System

namespace Runtime

variable {w : World} {r : Reservation} {rt t : Runtime}

/-- A generation the phase has reached, and a policy that has not moved backwards. -/
structure Stands (rt : Runtime) (r : Reservation) : Prop where
  phase : ∃ p,rt.phase r.session r.phase=some p ∧ r.phaseGeneration.value ≤ p.generation.value
  session : ∃ s,rt.find r.session=some s ∧ r.authority.policy=s.policy ∧
    (s.policy.present → ∃ e,rt.policies.find s.policy.id=some e ∧
      s.policy.generation.value ≤ e.generation.value)

/-- The attempt is over. -/
def Ended (rt : Runtime) (r : Reservation) : Prop :=
  ∀ p,rt.phase r.session r.phase=some p → p.generation=r.phaseGeneration → ¬p.state.inFlight

/-- As long as the policy the session is bound to is the registered one, it does not require
reproducibility; or the phase is not deterministic. -/
def Waived (rt : Runtime) (r : Reservation) : Prop :=
  (∀ s e,rt.find r.session=some s → rt.policies.find s.policy.id=some e →
    e.generation=s.policy.generation → System.guardedPolicy s →
    e.spec.reproducibility ≠ .required) ∨
  ∃ s adapter,rt.find r.session=some s ∧ rt.findAdapterByName s.adapterName=some adapter ∧
    r.kind ∉ adapter.deterministicPhases

theorem next_value_le {tag : IdTag} (g : Generation tag) : g.value ≤ g.next.value := by
  by_cases hm : g.value=Generation.kMax
  · rw [Generation.next,if_pos hm]
    exact UInt64.le_refl _
  · have h := g.next_toNat hm
    apply UInt64.le_iff_toNat_le.2
    omega

theorem advances_le {tag : IdTag} {σ : Type} {e e' : SpecIdentity tag σ} (h : e.Advances e') :
    e.generation.value ≤ e'.generation.value := by
  rcases h with ⟨heq,_⟩ | hlt | hmax
  · rw [heq]
    exact UInt64.le_refl _
  · exact UInt64.le_of_lt hlt
  · rw [hmax]
    apply UInt64.le_iff_toNat_le.2
    have hk : Generation.kMax.toNat=2^64-1 := rfl
    have hlt := UInt64.toNat_lt e.generation.value
    omega

theorem nextGeneration_le (p : PhaseRecord) : p.generation.value ≤ p.nextGeneration.value := by
  unfold PhaseRecord.nextGeneration
  split
  · exact next_value_le _
  · next h =>
    have h : p.generation.value=0 := by simpa [Generation.present] using h
    rw [h]
    exact UInt64.zero_le

theorem nextGeneration_lt {p : PhaseRecord} (h : p.generation.value ≠ Generation.kMax) :
    p.generation.value<p.nextGeneration.value := by
  unfold PhaseRecord.nextGeneration
  split
  · have hn := p.generation.next_toNat h
    apply UInt64.lt_iff_toNat_lt.2
    omega
  · next hp =>
    have hp : p.generation.value=0 := by simpa [Generation.present] using hp
    rw [hp]
    decide

theorem withDiagnostics_outputs (report : ExecutionReport) :
    (rt.withDiagnostics w r report).outputs=report.outputs := by
  unfold withDiagnostics
  dsimp only
  split <;> rfl

theorem withDiagnostics_completed (report : ExecutionReport) :
    (rt.withDiagnostics w r report).completed=report.completed := by
  unfold withDiagnostics
  dsimp only
  split <;> rfl

/-- What a verification that passes has seen. -/
theorem reproducibilityVerify_ok {outputs : List OutputDescriptor}
    (h : rt.reproducibilityVerify w r outputs=.ok ()) :
    ∃ s adapter,rt.find r.session=some s ∧ rt.findAdapterByName s.adapterName=some adapter ∧
      (r.kind ∉ adapter.deterministicPhases ∨ ∃ second,w.secondExecution=.ok second ∧
        second.completed ∧ outputSetDigest second.outputs=outputSetDigest outputs) := by
  simp only [reproducibilityVerify,do_eq_ok,requireSession_ok] at h
  obtain ⟨s,hs,adapter,ha,hv⟩ := h
  have ha : rt.findAdapterByName s.adapterName=some adapter := by
    cases hf : rt.findAdapterByName s.adapterName with
    | none =>
      rw [hf] at ha
      cases ha
    | some found =>
      rw [hf] at ha
      cases ha
      rfl
  refine ⟨s,adapter,hs,ha,?_⟩
  by_cases hk : r.kind ∉ adapter.deterministicPhases
  · exact .inl hk
  · rw [if_neg hk] at hv
    simp only [do_eq_ok,ensure_ok] at hv
    obtain ⟨second,hx,_,hc,hd⟩ := hv
    refine .inr ⟨second,hx,?_,hd⟩
    rw [ExecutionReport.completed,hc.1,hc.2]
    rfl

theorem executionFailed_state (p : PhaseRecord) (report : ExecutionReport) (now : UInt64) :
    ¬(p.executionFailed r report now).state.inFlight := by
  unfold PhaseRecord.executionFailed
  dsimp only
  rw [PhaseRecord.recordTransition_state]
  generalize (PhaseRecord.modifyAttempt _ _ _).state=s
  cases s <;> decide

/-- An execution that did not complete ends the attempt it is recorded for. -/
theorem recordExecution_ends {report : ExecutionReport}
    (h : recordExecution w r report rt=(.ok (),t)) (hc : report.completed=false) : t.Ended r := by
  have ⟨_,_,hg,h⟩ := seq_eq_ok.1 h
  cases hg
  have ⟨⟨session,phase⟩,_,_,h⟩ := seq_eq_ok.1 h
  have ⟨_,_,_,h⟩ := seq_eq_ok.1 h
  have ⟨_,_,_,h⟩ := seq_eq_ok.1 h
  have ⟨_,_,_,h⟩ := seq_eq_ok.1 h
  have ⟨_,t₁,_,h⟩ := seq_eq_ok.1 h
  rw [if_neg] at h
  · have ⟨_,_,hm,h⟩ := seq_eq_ok.1 h
    cases hm
    intro p hp _
    have ⟨_,_,ht⟩ := persistSession_frame w _ h
    have hs : t.sessions=t₁.sessions.modify r.session.value fun s =>
        (s.modifyPhase r.phase (·.executionFailed r report w.now)).touched w.now := by rw [ht]; rfl
    rw [phase_modifySession hs,if_pos rfl] at hp
    have ⟨s,hs,hp⟩ := Option.bind_eq_some_iff.1 hp
    have ⟨s₁,_,he⟩ := Option.map_eq_some_iff.1 hs
    subst he
    have hf := s₁.findPhase_modifyPhase r.phase r.phase (·.executionFailed r report w.now)
    rw [if_pos rfl] at hf
    have ⟨q,_,hq⟩ := Option.map_eq_some_iff.1 (hf.symm.trans hp)
    rw [← hq]
    exact executionFailed_state q report w.now
  · rintro ⟨hx,hz⟩
    simp [ExecutionReport.completed,hx,hz] at hc

theorem reserved_generation (p : PhaseRecord) (s : CompilerSession)
    (inputs : List (Ref .intermediate)) (isRetry : Bool) (now : UInt64) :
    (p.reserved s r inputs isRetry now).generation=r.phaseGeneration := by
  have ⟨_,_,he⟩ := reserved_frame r p s inputs isRetry now
  rw [he]
  rfl

theorem Waived.not_contracted {s : CompilerSession} (h : rt.Waived r) (hs : rt.find r.session=some s)
    (hg : System.guardedPolicy s) (hb : ∀ e,rt.policies.find s.policy.id=some e →
      e.generation=s.policy.generation) : ¬rt.contracted r := by
  intro hc
  simp only [contracted,reproducibilityRequired,hs,Option.any_some,Bool.and_eq_true,
    Option.any_eq_true,decide_eq_true_eq] at hc
  have ⟨⟨e,he,hreq⟩,adapter,ha,hk⟩ := hc
  rcases h with h | ⟨s',adapter',hs',ha',hk'⟩
  · exact h s e hs he (hb e he) hg hreq
  · cases hs.symm.trans hs'
    cases ha.symm.trans ha'
    exact hk' hk

/-- A commit finds the policy it was reserved under. -/
theorem commitVerdict_policy {session : CompilerSession} {phase : PhaseRecord}
    (h : rt.commitVerdict w r session phase=.valid) (hb : r.authority.policy=session.policy)
    (hp : session.policy.present) {e : PolicyIdentity}
    (he : rt.policies.find session.policy.id=some e) :
    e.generation=session.policy.generation := by
  have heq := (compareAuthority_valid h).policy (hb ▸ hp)
  simp only [observe,he] at heq
  rw [hb] at heq
  exact (congrArg Ref.generation heq).symm

/-- A reservation stands when it is made. -/
theorem reserve_stands {sid : CompilerSessionId} {pid : CompilerPhaseId} {isRetry : Bool}
    (h : reserve w sid pid isRetry rt=(.ok r,t)) : r.session=sid ∧ t.Stands r := by
  have hk := reserve_keeps (σ := fun _ => Eq) w sid pid isRetry rt
  rw [h] at hk
  rcases reserve_spec w sid pid h with ⟨_,e,he,_⟩ | ⟨s,p,inputs,r',hres,hr⟩
  · cases he
  have hr : r=r' := by
    rcases hr with hr | ⟨⟨_,hr⟩,_⟩
    · exact Except.ok.inj hr
    · cases hr
  subst hr
  have ha := (admission_iff sid pid).1 hres.admitted
  refine ⟨hres.session,⟨_,by rw [hres.session,hres.phase]; exact hres.record,?_⟩,?_⟩
  · rw [reserved_generation]
    exact UInt64.le_refl _
  · refine ⟨s.reserved r inputs isRetry w.now,?_,?_,?_⟩
    · rw [hres.session,find,hres.sessions,Std.ExtTreeMap.getElem?_modify_self]
      show (rt.find sid).map _=_
      rw [ha.session]
      rfl
    · rw [hres.authority]
      rfl
    · intro hp
      have hup := compareAuthority_valid ha.current
      have hcur := hup.policyCurrent
      have heq := hup.policy hp
      simp only [observe] at hcur heq
      obtain ⟨e,hfound⟩ := Option.isSome_iff_exists.1 hcur
      rw [hfound] at heq
      obtain ⟨e',hfound',hadv⟩ := hk.policies _ _ hfound
      refine ⟨e',hfound',?_⟩
      have hgen : s.policy.generation=e.generation := congrArg Ref.generation heq
      show s.policy.generation.value ≤ _
      rw [hgen]
      exact advances_le hadv

end Runtime

namespace System

variable {sys : System} {e : Event} {r : Reservation}

theorem Stands.apply (he : e.inProcess) (h : sys.rt.Stands r) : (sys.apply e).rt.Stands r := by
  have ⟨p,hp,hg⟩ := h.phase
  have ⟨s,hs,hb,hpol⟩ := h.session
  have hk := sys.apply_keeps he
  have ⟨s',hs',hev⟩ := hk.sessions _ _ hs
  have hpolicy := hev.policy
  refine ⟨?_,s',hs',hpolicy ▸ hb,?_⟩
  · have ⟨p',hp',hc⟩ := apply_record he hp
    refine ⟨p',hp',?_⟩
    rcases hc with hc | ⟨w,run,s,inputs,r',hres,rfl⟩
    · rw [hc.generation]
      exact hg
    · rw [Runtime.reserved_generation,hres.reserves.phaseGeneration]
      exact UInt64.le_trans hg (Runtime.nextGeneration_le p)
  · rw [hpolicy]
    intro hpres
    have ⟨entry,he,hle⟩ := hpol hpres
    have ⟨entry',he',hadv⟩ := hk.policies _ _ he
    exact ⟨entry',he',UInt64.le_trans hle (Runtime.advances_le hadv)⟩

theorem indirect_reserve {w : World} {run : PhaseRun} (h : sys.indirect e) (hr : sys.Runs e w run)
    (hpc : run.pc=.reserve) {p : PhaseRecord} (hp : sys.rt.phase run.session run.phase=some p) :
    p.generation.value ≠ Generation.kMax := by
  have ⟨_,index,he,hc⟩ := hr
  subst he
  simp only [indirect,hc,hpc,hp] at h
  simpa using h

theorem Ended.apply (he : e.inProcess) (hi : sys.indirect e) (h : sys.rt.Stands r)
    (hend : sys.rt.Ended r) : (sys.apply e).rt.Ended r := by
  have ⟨p,hp,hle⟩ := h.phase
  have ⟨p',hp',hc⟩ := apply_record he hp
  intro q hq hgen
  cases hp'.symm.trans hq
  rcases hc with hc | ⟨w,run,s,inputs,r',hres,rfl⟩
  · intro hf
    exact hend p hp (hc.generation ▸ hgen) (hc.flight hf)
  · -- a newer attempt has a newer generation
    rw [Runtime.reserved_generation,hres.reserves.phaseGeneration] at hgen
    have hp₂ : sys.rt.phase run.session run.phase=some p := by rw [hres.session,hres.phase,hp]
    have hlt := Runtime.nextGeneration_lt (indirect_reserve hi hres.runs hres.pc hp₂)
    rw [hgen] at hlt
    exact absurd hle (UInt64.not_le.2 hlt)

theorem Waived.apply (he : e.inProcess) (h : sys.rt.Stands r) (hw : sys.rt.Waived r) :
    (sys.apply e).rt.Waived r := by
  have ⟨s,hs,_,hpol⟩ := h.session
  have hk := sys.apply_keeps he
  have ⟨s',hs',hev⟩ := hk.sessions _ _ hs
  rcases hw with hw | ⟨s₁,adapter,hs₁,ha,hkind⟩
  · left
    intro s₂ entry' hs₂ hentry' hgen hguard
    cases hs'.symm.trans hs₂
    have hpolicy := hev.policy
    have hguard' : guardedPolicy s := by
      unfold guardedPolicy at hguard ⊢
      rwa [hpolicy] at hguard
    have hg := hguard'
    simp only [guardedPolicy,Bool.and_eq_true,decide_eq_true_eq] at hg
    rw [hpolicy] at hgen hentry'
    have ⟨entry,hentry,hle⟩ := hpol hg.1
    have ⟨found,hfound,hadv⟩ := hk.policies _ _ hentry
    cases hfound.symm.trans hentry'
    rcases hadv with ⟨heq,hspec⟩ | hlt | hmax
    · rw [hspec]
      exact hw s entry hs hentry (heq ▸ hgen) hguard'
    · rw [hgen] at hlt
      exact absurd hle (UInt64.not_le.2 hlt)
    · rw [hgen] at hmax
      exact absurd hmax hg.2
  · right
    cases hs.symm.trans hs₁
    refine ⟨s',adapter,hs',?_,hkind⟩
    have ⟨rest,hrest⟩ := hk.adapters
    rw [hev.adapterName,Runtime.findAdapterByName,← hrest,List.find?_append]
    rw [Runtime.findAdapterByName] at ha
    rw [ha]
    rfl

section History

variable {events : List Event} {rest : List Event} {n : Nat} {w : World} {run : PhaseRun}
  {report : ExecutionReport} {outputs : List OutputDescriptor}

theorem TookAt.append (h : sys.TookAt events n w run) : sys.TookAt (events++rest) n w run := by
  have ⟨e,he,hr⟩ := h
  have hn : n<events.length := (List.getElem?_eq_some_iff.1 he).1
  refine ⟨e,?_,?_⟩
  · rw [List.getElem?_append_left hn,he]
  · rwa [List.take_append_of_le_length (Nat.le_of_lt hn)]

theorem TookAt.last (h : (sys.run events).Runs e w run) :
    sys.TookAt (events++[e]) events.length w run := by
  refine ⟨e,?_,?_⟩
  · simp
  · simpa using h

theorem TookAt.lt (h : sys.TookAt events n w run) : n<events.length :=
  have ⟨_,he,_⟩ := h
  (List.getElem?_eq_some_iff.1 he).1

theorem Executed.append (h : sys.Executed events r n outputs) :
    sys.Executed (events++rest) r n outputs := by
  have ⟨w,run,report,ht,h⟩ := h
  exact ⟨w,run,report,ht.append,h⟩

theorem Reproduced.append (h : sys.Reproduced events r) : sys.Reproduced (events++rest) r := by
  have ⟨n,outputs,m,w,run,report,second,hx,hn,ht,h⟩ := h
  exact ⟨n,outputs,m,w,run,report,second,hx.append,hn,ht.append,h⟩

end History

/-- What is known of a run by where it stands. -/
def Standing (sys : System) (events : List Event) (run : PhaseRun) : Prop :=
  match run.pc with
  | .reserve | .refuse .. => True
  | .prepare r | .execute r => r.session=run.session ∧ (sys.run events).rt.Stands r
  | .record r report => r.session=run.session ∧ (sys.run events).rt.Stands r ∧
      (report.completed → ∃ n,sys.Executed events r n report.outputs)
  | .inspect r report | .reproduce r report | .verify r report =>
      r.session=run.session ∧ (sys.run events).rt.Stands r ∧
        ((sys.run events).rt.Ended r ∨ ∃ n,sys.Executed events r n report.outputs)
  | .validate r _ | .judge r _ | .commit r _ =>
      r.session=run.session ∧ (sys.run events).rt.Stands r ∧
        ((sys.run events).rt.Ended r ∨ (sys.run events).rt.Waived r ∨ sys.Reproduced events r)

theorem ahead {events : List Event} {outputs : List OutputDescriptor} (he : e.inProcess)
    (hi : (sys.run events).indirect e) (hs : (sys.run events).rt.Stands r)
    (h : (sys.run events).rt.Ended r ∨ ∃ n,sys.Executed events r n outputs) :
    ((sys.run events).apply e).rt.Ended r ∨ ∃ n,sys.Executed (events++[e]) r n outputs := by
  rcases h with h | ⟨n,hn⟩
  · exact .inl (Ended.apply he hi hs h)
  · exact .inr ⟨n,hn.append⟩

theorem cleared {events : List Event} (he : e.inProcess) (hi : (sys.run events).indirect e)
    (hs : (sys.run events).rt.Stands r) (h : (sys.run events).rt.Ended r ∨
      (sys.run events).rt.Waived r ∨ sys.Reproduced events r) :
    ((sys.run events).apply e).rt.Ended r ∨ ((sys.run events).apply e).rt.Waived r ∨
      sys.Reproduced (events++[e]) r := by
  rcases h with h | h | h
  · exact .inl (Ended.apply he hi hs h)
  · exact .inr (.inl (Waived.apply he hs h))
  · exact .inr (.inr h.append)

theorem Standing.stay {events : List Event} {run : PhaseRun} (he : e.inProcess)
    (hi : (sys.run events).indirect e) (h : sys.Standing events run) :
    sys.Standing (events++[e]) run := by
  unfold Standing at h ⊢
  rw [run_snoc]
  split at h
  · trivial
  · trivial
  · exact ⟨h.1,Stands.apply he h.2⟩
  · exact ⟨h.1,Stands.apply he h.2⟩
  · have ⟨ho,hs,hx⟩ := h
    refine ⟨ho,Stands.apply he hs,fun hc => ?_⟩
    have ⟨n,hn⟩ := hx hc
    exact ⟨n,hn.append⟩
  · exact ⟨h.1,Stands.apply he h.2.1,ahead he hi h.2.1 h.2.2⟩
  · exact ⟨h.1,Stands.apply he h.2.1,ahead he hi h.2.1 h.2.2⟩
  · exact ⟨h.1,Stands.apply he h.2.1,ahead he hi h.2.1 h.2.2⟩
  all_goals exact ⟨h.1,Stands.apply he h.2.1,cleared he hi h.2.1 h.2.2⟩

theorem Runs.record {w : World} {run : PhaseRun} {report : ExecutionReport}
    (h : sys.Runs e w run) (hpc : run.pc=.record r report) : (sys.apply e).rt=
      (Runtime.recordExecution w r ((sys.rt.facing w).withDiagnostics w r report)
        (sys.rt.facing w)).2 := by
  rw [h.rt,PhaseRun.step,hpc]
  exact PhaseRun.after_snd _ _

theorem Standing.go {events : List Event} {w : World} {run : PhaseRun} {pc : PhasePc}
    (he : e.inProcess) (hi : (sys.run events).indirect e) (hr : (sys.run events).Runs e w run)
    (h : sys.Standing events run) (hg : run.Goes w ((sys.run events).rt.facing w) pc) :
    sys.Standing (events++[e]) { run with pc } := by
  have hlast := TookAt.last hr
  have hrt := hr.rt
  unfold Standing at h ⊢
  rw [run_snoc]
  cases hg with
  | reserved hpc hres =>
    rw [hr.reserve hpc,hres]
    exact Runtime.reserve_stands hres
  | prepared hpc =>
    rw [hpc] at h
    exact ⟨h.1,Stands.apply he h.2⟩
  | unprepared hpc =>
    rw [hpc] at h
    exact ⟨h.1,Stands.apply he h.2,fun hc => nomatch hc⟩
  | unexecuted hpc =>
    rw [hpc] at h
    exact ⟨h.1,Stands.apply he h.2,fun hc => nomatch hc⟩
  | @executed r report hpc hx =>
    rw [hpc] at h
    exact ⟨h.1,Stands.apply he h.2,fun hc => ⟨_,w,run,report,hlast,hpc,hx,hc,rfl⟩⟩
  | @recorded t r report hpc hx =>
    rw [hpc] at h
    have ⟨ho,hs,hdone⟩ := h
    refine ⟨ho,Stands.apply he hs,?_⟩
    cases hc : report.completed with
    | false =>
      left
      rw [hr.record hpc,hx]
      refine Runtime.recordExecution_ends hx ?_
      rw [Runtime.withDiagnostics_completed,hc]
    | true =>
      right
      have ⟨n,hn⟩ := hdone hc
      refine ⟨n,?_⟩
      rw [Runtime.withDiagnostics_outputs]
      exact hn.append
  | inspected hpc =>
    rw [hpc] at h
    exact ⟨h.1,Stands.apply he h.2.1,ahead he hi h.2.1 h.2.2⟩
  | required hpc =>
    rw [hpc] at h
    exact ⟨h.1,Stands.apply he h.2.1,ahead he hi h.2.1 h.2.2⟩
  | @waived r report hpc hw =>
    rw [hpc] at h
    have ⟨ho,hs,_⟩ := h
    refine ⟨ho,Stands.apply he hs,.inr (.inl (Waived.apply he hs (.inl ?_)))⟩
    intro s entry hfound hentry _ _ hreq
    rw [← ho] at hw
    have hyes : ((sys.run events).rt.facing w).reproducibilityRequired r.session=true := by
      refine (Option.any_eq_true _ _).2 ⟨s,hfound,?_⟩
      exact (Option.any_eq_true _ _).2 ⟨entry,hentry,by simpa using hreq⟩
    rw [hyes] at hw
    cases hw
  | @verified r report hpc hv =>
    rw [hpc] at h
    have ⟨ho,hs,hx⟩ := h
    refine ⟨ho,Stands.apply he hs,?_⟩
    rcases hx with hx | ⟨n,hn⟩
    · exact .inl (Ended.apply he hi hs hx)
    right
    have ⟨s,adapter,hfound,hadapter,hk⟩ := Runtime.reproducibilityVerify_ok hv
    rcases hk with hk | ⟨second,hx,hc,hd⟩
    · exact .inl (Waived.apply he hs (.inr ⟨s,adapter,hfound,hadapter,hk⟩))
    · have ⟨_,_,_,ht,_⟩ := hn
      exact .inr ⟨n,_,_,w,run,report,second,hn.append,ht.lt,hlast,hpc,hx,hc,hd⟩
  | diverged hpc => trivial
  | validated hpc =>
    rw [hpc] at h
    exact ⟨h.1,Stands.apply he h.2.1,cleared he hi h.2.1 h.2.2⟩
  | judged hpc =>
    rw [hpc] at h
    exact ⟨h.1,Stands.apply he h.2.1,cleared he hi h.2.1 h.2.2⟩

/-- Every phase run of a process stands as it should, `commit_phase` apart. -/
theorem standing_run (hstart : ∀ call ∈ sys.calls,∀ run,call ≠ .phase run) {events : List Event}
    (hi : along indirect sys events) {i : Nat} {run : PhaseRun} (hc : (sys.run events).calls[i]?=some (.phase run)) (hd : run.direct=false) :
    sys.Standing events run := by
  induction events using List.reverseRecOn generalizing i run with
  | nil => exact absurd rfl (hstart _ (List.mem_of_getElem? hc) run)
  | append_singleton events e ih =>
    rw [along_snoc,Bool.and_eq_true] at hi
    have ⟨hi',hlast⟩ := hi
    rw [run_snoc] at hc
    cases e with
    | restart options adapters w => cases hc
    | call command w =>
      rcases apply_phaseRun hc with hc | ⟨_,_,_,he,_⟩ | ⟨_,_,hs⟩
      · exact (ih hi' hc hd).stay trivial hlast
      · cases he
      · cases hs with
        | run => trivial
        | retry => trivial
        | direct => cases hd
    | resume index w =>
      rcases apply_phaseRun hc with hc | ⟨w',before,hu,he,hb,hrun,hg⟩ | ⟨_,_,hs⟩
      · exact (ih hi' hc hd).stay trivial hlast
      · cases he
        have hd' : before.direct=false := by
          rw [hrun] at hd
          exact hd
        rw [hrun]
        exact (ih hi' hb hd').go trivial hlast ⟨hu,_,rfl,hb⟩ hg
      · cases hs with
        | round => trivial

/-- In every run, over any number of processes, in which no `commit_phase` comes to the commit of an
attempt under the contract, a deterministic phase under a policy that requires reproducibility is
committed only after two completed executions of the attempt gave equal output sets. -/
theorem reproducible_of_indirect (options : RuntimeOptions) (adapters : List Adapter)
    (file : Bytes) (w : World) {events : List Event}
    (hi : along indirect (boot options adapters file w) events) :
    (boot options adapters file w).Reproducible events := by
  generalize hsys : boot options adapters file w=sys at hi ⊢
  have hstart : ∀ call ∈ sys.calls,∀ run,call ≠ .phase run := by
    subst hsys
    intro call hc
    cases hc
  intro n e sid pid p p' hn he hp hne hp' hcommitted
  have hstep := sys.run_take_succ events n
  rw [hn] at hstep
  have hstep : sys.run (events.take (n+1))=(sys.run (events.take n)).apply e := hstep
  rw [hstep] at hp'
  have hin := along_at hi hn
  have hbefore := along_take hi n
  generalize hb : sys.run (events.take n)=before at *
  rcases @apply_cases before _ he with hk | ⟨w,run,hr,hpc⟩
  · obtain ⟨q,hq,hm⟩ := hk.phase hp
    cases hq.symm.trans hp'
    exact absurd (hm.entered hcommitted) hne
  rcases hpc with hpc | ⟨r,report,hpc⟩
  · have hk := Runtime.reserve_keeps (σ := fun _ => Eq) w run.session run.phase run.isRetry
      (before.rt.facing w)
    rw [← hr.reserve hpc] at hk
    obtain ⟨q,hq,hm⟩ := (Runtime.facing_keeps hk).phase hp
    cases hq.symm.trans hp'
    exact absurd (hm.entered hcommitted) hne
  have hp₂ : (Runtime.commitReserved w r report (before.rt.facing w)).2.phase sid pid=some p' := by
    rw [← hr.commit hpc]
    exact hp'
  have hp₁ : (before.rt.facing w).phase sid pid=some p := hp
  obtain ⟨_,session,phase,t,hcm,hsid,hpid,hreprobe,hverdict⟩ :=
    Runtime.commitReserved_entered w r hp₁ hp₂ hne hcommitted
  obtain ⟨hs,hphase,hgen,hinv,hready⟩ := Runtime.committable_ok r hcm
  obtain ⟨hup,index,hev,hcall⟩ := hr
  subst hev
  simp only [indirect,hcall,hpc,Bool.and_eq_true] at hin
  obtain ⟨⟨hdirect,hkeyed⟩,hguard⟩ := hin
  have hphase' : before.rt.phase r.session r.phase=some phase :=
    Option.bind_eq_some_iff.2 ⟨session,hs,hphase⟩
  rw [hphase'] at hkeyed
  have hkeyed : phase.id=r.phase := by simpa using hkeyed
  have hrp : r.phase=pid := hkeyed.symm.trans hpid
  subst hsid hrp
  have hsame : phase=p := Option.some.inj (hphase'.symm.trans hp)
  subst hsame
  refine ⟨w,run,r,report,⟨hup,index,rfl,hcall⟩,hpc,rfl,rfl,hgen.symm,hinv.symm,?_⟩
  intro hcontract
  have hdirect : run.direct=false := by
    rw [hcontract,Bool.and_true] at hdirect
    simpa using hdirect
  have hstanding := standing_run hstart hbefore (by rw [hb]; exact hcall) hdirect
  unfold Standing at hstanding
  rw [hpc,hb] at hstanding
  obtain ⟨_,hstands,hx⟩ := hstanding
  rcases hx with hx | hx | hx
  · refine absurd ?_ (hx phase hphase' hgen)
    rw [hready]
    decide
  · obtain ⟨s,hs',hbound,_⟩ := hstands.session
    cases (show before.rt.find r.session=some session from hs).symm.trans hs'
    have hg : guardedPolicy session := by
      rw [hs'] at hguard
      simpa using hguard
    have hpresent : session.policy.present := by
      simp only [guardedPolicy,Bool.and_eq_true] at hg
      exact hg.1
    obtain ⟨toolchains,_,ht⟩ := Runtime.reprobe_ok w r hreprobe
    refine absurd hcontract (hx.not_contracted hs' hg fun entry hentry => ?_)
    refine Runtime.commitVerdict_policy hverdict hbound hpresent ?_
    rw [ht]
    exact hentry
  · exact hx

end System

namespace Sample

/-- The second execution gives what the first one gave. -/
def repeatable : World := { world with secondExecution := .ok report }

/-- A process with an adapter whose link phases are deterministic. -/
def exact : System :=
  System.boot options [{ adapter with deterministicPhases := [.link] }] [] world

/-- A session of one link phase whose outputs must be reproducible. -/
def exacting : List Event :=
  [.call (.discoverToolchain family) world,
    .call (.createSession { request with policy := { reproducibility := .required } }) world]

def verified : List Event :=
  exacting++.call (.runPhase ⟨1⟩ ⟨1⟩) repeatable::List.replicate 10 (.resume 2 repeatable)

/-- A peer reports the output of the running attempt and asks for its commit. -/
def reported : List Event :=
  exacting++[.call (.runPhase ⟨1⟩ ⟨1⟩) world,.resume 2 world,.resume 2 world,
    .call (.reportOutput ⟨1⟩ ⟨1⟩ ⟨2⟩ ⟨⟨1⟩,⟨1⟩⟩ report.outputs report.process) world,
    .call (.commitPhase ⟨1⟩ ⟨1⟩ ⟨2⟩ ⟨⟨1⟩,⟨1⟩⟩) world,.resume 4 world,.resume 4 world]

end Sample

namespace System

/-- A `run_phase` that executes its compiler twice. -/
theorem reproducible_of_verified : Sample.exact.Reproducible Sample.verified ∧
    ((Sample.exact.run Sample.verified).phase ⟨1⟩ ⟨1⟩).map (·.state)=some .committed := by
  have h : (along indirect Sample.exact Sample.verified,
      ((Sample.exact.run Sample.verified).phase ⟨1⟩ ⟨1⟩).map (·.state))=
      (true,some .committed) := by decide +kernel
  have ⟨hi,hc⟩ := Prod.mk.inj h
  unfold Sample.exact at hi ⊢
  exact ⟨reproducible_of_indirect _ _ _ _ hi,hc⟩

/-- The event does not take the second execution of a `run_phase`. -/
def unverified (sys : System) : Event → Bool
  | .resume index _ => match sys.calls[index]? with
      | some (.phase { pc := .verify ..,.. }) => false
      | _ => true
  | _ => true

theorem not_reproduced {sys : System} {events : List Event} {r : Reservation}
    (h : along unverified sys events) : ¬sys.Reproduced events r := by
  rintro ⟨_,_,m,w,⟨session,phase,isRetry,retry,direct,pc⟩,report,_,_,_,⟨e,he,_,index,rfl,hc⟩,hpc,_⟩
  have hm := along_at h he
  cases hpc
  simp only [unverified,hc] at hm
  cases hm

/-- The call stands before the commit of an attempt under the contract. -/
def commitContracted (sys : System) (index : Nat) : Bool :=
  match sys.calls[index]? with
  | some (.phase { pc := .commit r _,.. }) => sys.rt.contracted r
  | _ => false

/-- The phase is committed after one execution, and one report of it. -/
theorem not_reproducible_of_reported :
    ¬Sample.exact.Reproducible (Sample.reported++[.resume 4 Sample.world]) := by
  have h : (along unverified Sample.exact Sample.reported,
      ((Sample.exact.run Sample.reported).phase ⟨1⟩ ⟨1⟩).map (·.state),
      ((Sample.exact.run (Sample.reported++[.resume 4 Sample.world])).phase ⟨1⟩ ⟨1⟩).map (·.state),
      commitContracted (Sample.exact.run Sample.reported) 4)=(true,some .commitReady,some .committed,true) := by decide +kernel
  have ⟨hv,h⟩ := Prod.mk.inj h
  have ⟨hbefore,h⟩ := Prod.mk.inj h
  have ⟨hafter,hcontract⟩ := Prod.mk.inj h
  have ⟨p,hp,hs⟩ := Option.map_eq_some_iff.1 hbefore
  have ⟨p',hp',hs'⟩ := Option.map_eq_some_iff.1 hafter
  intro hr
  have htake : (Sample.reported++[Event.resume 4 Sample.world]).take Sample.reported.length=
      Sample.reported := List.take_left
  have hne : p.state ≠ .committed := by
    rw [hs]
    decide
  have hr := hr Sample.reported.length (.resume 4 Sample.world) ⟨1⟩ ⟨1⟩ p p'
    (List.getElem?_concat_length ..) trivial (by rw [htake]; exact hp) hne ?_ hs'
  · rw [htake] at hr
    have ⟨w,⟨session,phase,isRetry,retry,direct,pc⟩,r,report,⟨_,index,he,hcall⟩,hpc,_,_,_,_,hrep⟩ := hr
    cases he
    cases hpc
    simp only [commitContracted,hcall] at hcontract
    exact not_reproduced hv (hrep hcontract)
  · have hall : (Sample.reported++[Event.resume 4 Sample.world]).take (Sample.reported.length+1)=
        Sample.reported++[Event.resume 4 Sample.world] := List.take_of_length_le (by simp)
    rw [hall]
    exact hp'

end System

end CompilerFabric
