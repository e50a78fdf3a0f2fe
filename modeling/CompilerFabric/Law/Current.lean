import CompilerFabric.Law.Superseded
import CompilerFabric.Law.Upheld

namespace CompilerFabric

open Base Base.Action

/-- What an authority names, without its counters. -/
def PhaseAuthority.references (a : PhaseAuthority) :=
  (a.toolchain,a.cooperatingToolchains,a.target,a.environment,a.policy,a.source)

def CompilerSession.references (s : CompilerSession) :=
  (s.toolchain,s.cooperatingToolchains,s.target,s.environment,s.policy,s.source)

namespace Runtime

variable {w : World} {rt t : Runtime} {r : Reservation} {s : CompilerSession} {p : PhaseRecord}

/-- The reference is registered, in the generation it names. -/
def Registered {tag : IdTag} (found : Option (Ref tag)) (reference : Ref tag) : Prop :=
  ∃ x,found=some x ∧ (reference.present → x=reference)

/-- Everything the phase is bound to stands as it was when it was bound. -/
structure Current (rt : Runtime) (p : PhaseRecord) : Prop where
  toolchain : Registered ((rt.toolchains.find p.toolchain.id).map fun t => ⟨t.id,t.generation⟩)
    p.toolchain
  target : Registered ((rt.targets.find p.target.id).map fun t => ⟨t.id,t.generation⟩) p.target
  environment : Registered ((rt.environments.find p.environment.id).map fun e =>
    ⟨e.id,e.generation⟩) p.environment
  policy : Registered ((rt.policies.find p.policy.id).map fun e => ⟨e.id,e.generation⟩) p.policy
  source : Registered ((rt.sources.find p.source.id).map fun u => ⟨u.id,u.generation⟩) p.source

/-- The reservation names what its session is bound to. -/
def Backs (rt : Runtime) (r : Reservation) : Prop :=
  ∃ s,rt.find r.session=some s ∧ r.authority.references=s.references

theorem Backs.keeps {σ : UInt64 → SessionState → SessionState → Prop}
    {P : PhaseRecord → PhaseRecord → Prop} (h : rt.Backs r) (hk : Keeps σ P rt t) : t.Backs r := by
  obtain ⟨s,hs,hr⟩ := h
  obtain ⟨s',hs',he⟩ := hk.sessions r.session.value s hs
  have hb := he.binding
  simp only [CompilerSession.binding,Prod.mk.injEq] at hb
  obtain ⟨_,_,_,ht,hc,hg,he,hl,hu,_⟩ := hb
  refine ⟨s',hs',?_⟩
  rw [hr,CompilerSession.references,CompilerSession.references,ht,hc,hg,he,hl,hu]

theorem registered_of_current {tag : IdTag} {found : Option (Ref tag)} {reference bound : Ref tag}
    (hf : found.isSome) (he : bound.present → bound=found.getD reference) :
    Registered found bound := by
  obtain ⟨x,rfl⟩ := Option.isSome_iff_exists.1 hf
  exact ⟨x,rfl,fun hp => (he hp).symm⟩

/-- A valid verdict finds what the session, and so the phase, is bound to. -/
theorem current_of_verdict (h : rt.commitVerdict w r s p=.valid)
    (hr : r.authority.references=s.references) (hb : s.Binds p) : rt.Current p := by
  have hup := compareAuthority_valid h
  simp only [PhaseAuthority.references,CompilerSession.references,Prod.mk.injEq] at hr
  obtain ⟨ht,_,hg,he,hl,hu⟩ := hr
  simp only [CompilerSession.Binds,Prod.mk.injEq] at hb
  obtain ⟨bt,bg,be,bl,bu,_⟩ := hb
  constructor
  · rw [bt]
    exact registered_of_current (by simpa [observe] using hup.toolchainCurrent) (ht ▸ hup.toolchain)
  · rw [bg]
    exact registered_of_current (by simpa [observe] using hup.targetCurrent) (hg ▸ hup.target)
  · rw [be]
    exact registered_of_current (by simpa [observe] using hup.environmentCurrent)
      (he ▸ hup.environment)
  · rw [bl]
    exact registered_of_current (by simpa [observe] using hup.policyCurrent) (hl ▸ hup.policy)
  · rw [bu]
    exact registered_of_current (by simpa [observe] using hup.sourceCurrent) (hu ▸ hup.source)

/-- The verdict finds the lease of the phase held. -/
theorem held_of_verdict (h : rt.commitVerdict w r s p=.valid) (hr : r.authority.lease.present) :
    rt.leases.isHeld p.lease w.now := (compareAuthority_valid h).held hr

/-- The registries a phase is bound to are not written. -/
def SameRegistries (rt t : Runtime) : Prop :=
  (t.toolchains,t.targets,t.environments,t.policies,t.sources)=
    (rt.toolchains,rt.targets,rt.environments,rt.policies,rt.sources)

instance : IsPreorder Runtime SameRegistries where
  refl _ := rfl
  trans _ _ _ h h' := h'.trans h

theorem SameRegistries.current (h : SameRegistries rt t) (hc : rt.Current p) : t.Current p := by
  simp only [SameRegistries,Prod.mk.injEq] at h
  obtain ⟨ht,hg,he,hl,hs⟩ := h
  obtain ⟨ct,cg,ce,cl,cs⟩ := hc
  rw [← ht] at ct
  rw [← hg] at cg
  rw [← he] at ce
  rw [← hl] at cl
  rw [← hs] at cs
  exact ⟨ct,cg,ce,cl,cs⟩

theorem persist_registries (session : CompilerSession) :
    Within SameRegistries (persist w session) := by
  intro rt
  cases h : persist w session rt with
  | mk result t =>
    obtain ⟨_,_,ht⟩ := persist_frame w h
    rw [ht]
    rfl

theorem conclude_registries (session : CompilerSession) (phase : PhaseRecord) :
    Within SameRegistries (conclude w session phase) := by
  refine Within.get.bind fun rt => ?_
  split
  · split
    · exact .pure _
    · refine Within.bind (fun _ => rfl) fun _ => Within.bind (fun rt => ?_) fun _ => .pure _
      unfold citeValidation
      split <;> rfl
  · exact .pure _

theorem modifyArtifact_registries (f : IntermediateArtifact → IntermediateArtifact)
    (o : Ref .intermediate) : Within SameRegistries (modifyArtifact f o) := fun _ => rfl

theorem promote_registries (o : Ref .intermediate) : Within SameRegistries (promote o) := fun _ => rfl

theorem publish_registries (report : ExecutionReport) (session : CompilerSession)
    (phase : PhaseRecord) : Within SameRegistries (publish w r report session phase) := by
  refine Within.bind ?_ fun _ => (persist_registries _).bind fun _ => ?_
  · refine Within.bind (fun _ => rfl) fun _ => ?_
    refine (Within.forEach (modifyArtifact_registries _) _).bind fun _ => ?_
    refine Within.bind (fun _ => rfl) fun _ => (Within.forEach promote_registries _).bind fun _ => ?_
    exact (conclude_registries _ _).bind fun _ => .pure _
  · refine Within.bind (fun _ => rfl) fun _ => Within.bind ?_ fun _ => .pure _
    refine Within.get.bind fun _ => (Within.forEach (modifyArtifact_registries _) _).bind fun _ => ?_
    exact Within.bind (fun _ => rfl) fun _ _ => rfl

/-- A commit that makes a phase COMMITTED leaves the registries as its verdict found them. -/
theorem commitReserved_current {report : ExecutionReport} {sid : CompilerSessionId}
    {pid : CompilerPhaseId} {q : PhaseRecord} (hp : rt.phase sid pid=some p)
    (hq : (commitReserved w r report rt).2.phase sid pid=some q) (hn : p.state ≠ .committed)
    (hc : q.state=.committed) (hs : rt.find r.session=some s) (hr : r.authority.references=s.references)
    (hl : r.authority.lease.present) (hb : ∀ k p,s.findPhase k=some p → p.id=k ∧
      (p.state.inFlight → s.Binds p)) :
    r.session=sid ∧ r.phase=pid ∧ (commitReserved w r report rt).2.Current p ∧
      rt.leases.isHeld p.lease w.now := by
  obtain ⟨hready,session,phase,t,hcm,hsid,hpid,hre,hv⟩ := commitReserved_entered w r hp hq hn hc
  obtain ⟨hs',hphase,_,_,hcr⟩ := committable_ok r hcm
  cases hs.symm.trans hs'
  have hid := (hb r.phase phase hphase).1
  have hrp : r.phase=pid := hid.symm.trans hpid
  have hsame : phase=p := by
    rw [Runtime.phase,← hsid,hs,Option.bind_some,← hrp,hphase] at hp
    exact Option.some.inj hp
  subst hsame
  have hcur := current_of_verdict hv hr ((hb r.phase phase hphase).2 (by rw [hcr]; rfl))
  obtain ⟨toolchains,evidenceIds,ht⟩ := reprobe_ok w r hre
  have hheld := held_of_verdict hv hl
  rw [ht] at hheld
  refine ⟨hsid,hrp,?_,hheld⟩
  have he : (commitReserved w r report rt).2=(publish w r report s phase t).2 := by
    rw [commitReserved,bind_ok (rfl : get rt=_),bind_ok (ofExcept_eq_ok.2 ⟨hcm,rfl⟩)]
    dsimp only
    rw [bind_ok hre,bind_ok (rfl : get t=_),if_pos hv]
  rw [he]
  exact SameRegistries.current (publish_registries report s phase t) hcur

/-- The reservation of a `reserve` that is not refused. -/
theorem reserve_backs {sid : CompilerSessionId} {pid : CompilerPhaseId} {isRetry : Bool}
    (h : reserve w sid pid isRetry rt=(.ok r,t)) : t.Backs r ∧ r.authority.lease.present := by
  rcases reserve_spec w sid pid h with ⟨_,e,he,_⟩ | ⟨s,p,inputs,r',hres,hr⟩
  · cases he
  have hr : r=r' := by
    rcases hr with hr | ⟨⟨_,hr⟩,_⟩
    · exact Except.ok.inj hr
    · cases hr
  subst hr
  have ha := (admission_iff sid pid).1 hres.admitted
  constructor
  · refine ⟨s.reserved r inputs isRetry w.now,?_,?_⟩
    · rw [hres.session,find,hres.sessions,Std.ExtTreeMap.getElem?_modify_self]
      show (rt.find sid).map _=_
      rw [ha.session]
      rfl
    · rw [hres.authority]
      rfl
  · obtain ⟨_,_,he⟩ := reserved_frame r p s inputs isRetry w.now
    rw [hres.authority,he]
    exact hres.lease_present

end Runtime

theorem PhaseRun.Goes.reservation {w : World} {rt : Runtime} {run : PhaseRun} {pc : PhasePc}
    {r : Reservation} (h : run.Goes w rt pc) (hr : pc.reservation=some r) :
    (run.pc=.reserve ∧ ∃ t,Runtime.reserve w run.session run.phase run.isRetry rt=(.ok r,t)) ∨
      run.pc.reservation=some r := by
  cases h with
  | @reserved t _ hpc h =>
    cases hr
    exact .inl ⟨hpc,t,h⟩
  | _ hpc =>
    rw [hpc]
    exact .inr hr

namespace System

variable {sys : System} {e : Event} {events : List Event} {sid : CompilerSessionId}
  {pid : CompilerPhaseId}

/-- Every reservation a call works under names what its session is bound to, and a lease. -/
def Backed (sys : System) : Prop := ∀ (i : Nat) run r,sys.calls[i]?=some (.phase run) →
  run.pc.reservation=some r → sys.rt.Backs r ∧ r.authority.lease.present

theorem starts_backed {run : PhaseRun} {r : Reservation} (hl : sys.rt.Lawful) (h : sys.Starts e run)
    (hr : run.pc.reservation=some r) : sys.rt.Backs r ∧ r.authority.lease.present := by
  cases h with
  | run => cases hr
  | round => cases hr
  | retry => cases hr
  | @direct session phase generation invocation w r' h =>
    cases hr
    simp only [Runtime.commitPhase,do_eq_ok,Runtime.requireSession_ok,Runtime.requirePhase_ok] at h
    obtain ⟨s,hs,p,hp,_,_,_,_,h⟩ := h
    split at h
    · obtain ⟨_,_,h⟩ := do_eq_ok.1 h
      cases h
    · obtain ⟨_,hstate,h⟩ := do_eq_ok.1 h
      cases h
      refine ⟨⟨s,hs,rfl⟩,?_⟩
      have hlaw := (hl session s hs).phases phase p hp
      refine hlaw.lease (hlaw.begun (.inl ?_))
      rcases ensure_ok.1 hstate with h | h <;> rw [h] <;> rfl

theorem Backed.apply (h : sys.Backed) (hl : sys.rt.Lawful) (he : e.inProcess) :
    (sys.apply e).Backed := by
  intro i run r hi hr
  have hk := sys.apply_keeps he
  rcases apply_phaseRun hi with hi | ⟨w,before,hu,rfl,hc,_,hg⟩ | ⟨_,_,hs⟩
  · obtain ⟨hb,hlease⟩ := h i run r hi hr
    exact ⟨hb.keeps hk,hlease⟩
  · rcases hg.reservation hr with ⟨hpc,t,hres⟩ | hbefore
    · have hruns : sys.Runs (.resume i w) w before := ⟨hu,i,rfl,hc⟩
      rw [hruns.reserve hpc,hres]
      exact Runtime.reserve_backs hres
    · obtain ⟨hb,hlease⟩ := h i before r hc hbefore
      exact ⟨hb.keeps hk,hlease⟩
  · obtain ⟨hb,hlease⟩ := starts_backed hl hs hr
    exact ⟨hb.keeps hk,hlease⟩

theorem run_backed (hs : sys.rt.sessions=∅) (hc : sys.calls=[]) (he : ∀ e ∈ events,e.inProcess)
    (hu : ∀ e ∈ events,e.unadopted) : (sys.run events).Backed := by
  induction events using List.reverseRecOn with
  | nil =>
    intro i run r hi
    rw [show (sys.run []).calls=[] from hc] at hi
    cases hi
  | append_singleton events e ih =>
    have he' : ∀ e ∈ events,e.inProcess := fun e h => he e (by simp [h])
    have hu' : ∀ e ∈ events,e.unadopted := fun e h => hu e (by simp [h])
    rw [run_snoc]
    exact (ih he' hu').apply (run_lawful hs he' hu') (he e (by simp))

/-- An event that makes a phase COMMITTED: at that moment every registry has the phase bound to what
it holds now, the toolchain as the commit found it on disk, and the lease of the phase is held. -/
theorem apply_current (hl : sys.rt.Lawful) (hb : sys.Backed) (he : e.inProcess) {p q : PhaseRecord}
    (hp : sys.rt.phase sid pid=some p) (hq : (sys.apply e).rt.phase sid pid=some q)
    (hn : p.state ≠ .committed) (hc : q.state=.committed) :
    (sys.apply e).rt.Current p ∧ ∃ w run r,sys.Runs e w run ∧ run.pc.reservation=some r ∧
      r.session=sid ∧ r.phase=pid ∧ sys.rt.leases.isHeld p.lease w.now := by
  have opens {σ : UInt64 → SessionState → SessionState → Prop}
      (h : Runtime.Keeps σ PhaseRecord.Opens sys.rt (sys.apply e).rt) : False := by
    obtain ⟨q',hq',ho⟩ := h.phase hp
    cases hq.symm.trans hq'
    exact hn (ho.entered hc)
  rcases apply_cases he with h | ⟨w,run,hr,hpc | ⟨r,report,hpc⟩⟩
  · exact (opens (h.mono (fun _ _ _ h => h) fun _ _ h => h.opens)).elim
  · refine (opens (σ := fun _ => Eq) ?_).elim
    rw [hr.reserve hpc]
    exact Runtime.facing_keeps
      (Runtime.reserve_keeps w run.session run.phase run.isRetry (sys.rt.facing w))
  · have hres : run.pc.reservation=some r := by rw [hpc]; rfl
    have hruns := hr
    obtain ⟨_,i,_,hi⟩ := hruns
    obtain ⟨⟨s,hs,href⟩,hlease⟩ := hb i run r hi hres
    have hlaw := hl r.session s hs
    rw [hr.commit hpc] at hq ⊢
    have hfound : (sys.rt.facing w).phase sid pid=some p := hp
    obtain ⟨hsid,hpid,hcur,hheld⟩ := Runtime.commitReserved_current hfound hq hn hc hs href hlease
      fun k p hp => ⟨hlaw.keyed k p hp,fun hf =>
        hlaw.bound k p hp ((hlaw.phases k p hp).begun (.inl hf))⟩
    exact ⟨hcur,w,run,r,hr,hres,hsid,hpid,hheld⟩

/-- No stale authority commits: in every run of a process, the event that makes a phase COMMITTED is
a locked part of a run under a reservation of that phase, which finds the toolchain, the target, the
environment, the policy and the source registered in the generations the phase is bound to, and its
lease held. -/
theorem commits_current (hs : sys.rt.sessions=∅) (hc : sys.calls=[])
    (he : ∀ e ∈ events,e.inProcess) (hu : ∀ e ∈ events,e.unadopted) {n : Nat}
    (hn : events[n]?=some e) {p q : PhaseRecord} (hp : (sys.run (events.take n)).phase sid pid=some p)
    (hq : (sys.run (events.take (n+1))).phase sid pid=some q) (hopen : p.state ≠ .committed)
    (hcommitted : q.state=.committed) :
    (sys.run (events.take (n+1))).rt.Current p ∧ ∃ w run r,(sys.run (events.take n)).Runs e w run ∧
      run.pc.reservation=some r ∧ r.session=sid ∧ r.phase=pid ∧
        (sys.run (events.take n)).rt.leases.isHeld p.lease w.now := by
  have he' : ∀ e ∈ events.take n,e.inProcess := fun e h => he e (List.mem_of_mem_take h)
  have hu' : ∀ e ∈ events.take n,e.unadopted := fun e h => hu e (List.mem_of_mem_take h)
  rw [run_take_succ,hn] at hq ⊢
  exact apply_current (run_lawful hs he' hu') (run_backed hs hc he' hu')
    (he e (List.mem_of_getElem? hn)) hp hq hopen hcommitted

/-- The first of the three phases commits. -/
theorem commits_current_of_joining : ∃ p,
    (Sample.process.run (Sample.joining.take 11)).phase ⟨1⟩ ⟨1⟩=some p ∧
      (Sample.process.run (Sample.joining.take 12)).rt.Current p := by
  have h : ((Sample.process.run (Sample.joining.take 11)).phase ⟨1⟩ ⟨1⟩).any (·.state ≠ .committed) ∧
      ((Sample.process.run (Sample.joining.take 12)).phase ⟨1⟩ ⟨1⟩).any (·.state=.committed) := by
    decide +kernel
  obtain ⟨p,hp,hopen⟩ := (Option.any_eq_true _ _).1 h.1
  obtain ⟨q,hq,hcommitted⟩ := (Option.any_eq_true _ _).1 h.2
  exact ⟨p,hp,(commits_current (n := 11) rfl rfl (fun e he => (joining_calls e he).1)
    (fun e he => (joining_calls e he).2) rfl hp hq (of_decide_eq_true hopen)
    (of_decide_eq_true hcommitted)).1⟩

end System

end CompilerFabric
