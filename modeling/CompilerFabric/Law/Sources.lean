import CompilerFabric.Runtime.Outputs
import CompilerFabric.Runtime.Steps

namespace CompilerFabric

open Base Base.Action

/-- The file system: contents by path. -/
abbrev FileSystem := Bytes → Option Bytes

/-- `verify_unchanged`. -/
def SourceRegistry.verifyUnchanged (fs : FileSystem) (unit : SourceUnit) : Bool :=
  !unit.path.isEmpty && (fs unit.path).any fun contents => Digest.of contents=unit.content

namespace Runtime

/-- Every admitted source of the session is on disk as it was admitted. -/
def sourcesUnchanged (rt : Runtime) (fs : FileSystem) (s : CompilerSession) : Bool :=
  s.sources.all fun reference =>
    (rt.sources.find reference.id).all (SourceRegistry.verifyUnchanged fs)

/-- The toolchains a commit compares with, where the re-probe does not end it. -/
def reprobedToolchains (rt : Runtime) (w : World) (session : CompilerSession) :
    Result ToolchainRegistry :=
  if (rt.findAdapterByName session.adapterName).isSome ∧
      (rt.toolchains.find session.toolchain.id).isSome then
    w.reprobed.bind fun observed => (rt.toolchains.refresh observed).map (·.2)
  else .ok rt.toolchains

/-- The checks of `commit_reserved`. -/
structure Passes (rt : Runtime) (w : World) (r : Reservation) (session : CompilerSession)
    (phase : PhaseRecord) : Prop where
  committable : rt.committable r=.ok (session,phase)
  keyed : phase.id=r.phase
  valid : ∃ toolchains,rt.reprobedToolchains w session=.ok toolchains ∧
    { rt with toolchains }.commitVerdict w r session phase=.valid

/-- The reserved phase becomes COMMITTED. -/
def Commits (rt : Runtime) (w : World) (r : Reservation) (report : ExecutionReport) : Prop :=
  ∃ p p',rt.phase r.session r.phase=some p ∧ p.state ≠ .committed ∧
    (commitReserved w r report rt).2.phase r.session r.phase=some p' ∧ p'.state=.committed

variable {rt : Runtime} {w : World} {r : Reservation} {session : CompilerSession}
  {phase : PhaseRecord}

/-- The verdict reads the registries and the leases. -/
theorem commitVerdict_congr {t : Runtime} (htc : t.toolchains=rt.toolchains)
    (htg : t.targets=rt.targets) (hen : t.environments=rt.environments)
    (hpo : t.policies=rt.policies) (hso : t.sources=rt.sources) (hle : t.leases=rt.leases) :
    t.commitVerdict w r session phase=rt.commitVerdict w r session phase := by
  simp only [commitVerdict,observe,htc,htg,hen,hpo,hso,hle]

/-- A re-probe that does not end the commit writes the toolchains, and evidence. -/
theorem reprobe_toolchains {t : Runtime} (h : reprobe w r session phase rt=(.ok (),t)) :
    ∃ toolchains,rt.reprobedToolchains w session=.ok toolchains ∧
      t.commitVerdict w r session phase=
        { rt with toolchains }.commitVerdict w r session phase := by
  have ⟨_,_,hg,h⟩ := seq_eq_ok.1 h
  cases hg
  unfold reprobedToolchains
  split at h
  · next hc =>
    rw [if_pos hc]
    cases hw : w.reprobed with
    | error e =>
      rw [hw] at h
      have ⟨_,_,_,h⟩ := seq_eq_ok.1 h
      have ⟨_,_,_,h⟩ := seq_eq_ok.1 h
      have ⟨_,_,_,h⟩ := seq_eq_ok.1 h
      have ⟨_,_,_,h⟩ := seq_eq_ok.1 h
      have ⟨_,_,_,h⟩ := seq_eq_ok.1 h
      cases h
    | ok observed =>
      rw [hw] at h
      have ⟨⟨mutation,toolchains⟩,_,ho,h⟩ := seq_eq_ok.1 h
      have ⟨hfound,he⟩ := ofExcept_eq_ok.1 ho
      cases he
      have hr : (rt.toolchains.refresh observed).map (·.2)=.ok toolchains := by
        rw [hfound]
        rfl
      refine ⟨toolchains,hr,?_⟩
      have ⟨_,_,hm,h⟩ := seq_eq_ok.1 h
      cases hm
      split at h
      · have ⟨_,_,he,h⟩ := seq_eq_ok.1 h
        cases he
        cases h
        exact commitVerdict_congr rfl rfl rfl rfl rfl rfl
      · cases h
        rfl
  · next hc =>
    rw [if_neg hc]
    cases h
    exact ⟨_,rfl,rfl⟩

theorem reprobe_of_toolchains {toolchains : ToolchainRegistry}
    (h : rt.reprobedToolchains w session=.ok toolchains) :
    ∃ t,reprobe w r session phase rt=(.ok (),t) := by
  unfold reprobedToolchains at h
  simp only [reprobe,bind_apply,get_apply]
  split at h
  · next hc =>
    rw [if_pos hc]
    cases hw : w.reprobed with
    | error e =>
      rw [hw] at h
      cases h
    | ok observed =>
      rw [hw] at h
      cases ho : rt.toolchains.refresh observed with
      | error e =>
        have h : (rt.toolchains.refresh observed).map (·.2)=.ok toolchains := h
        rw [ho] at h
        cases h
      | ok found =>
        dsimp only
        rw [bind_ok (a := found) (t := rt) (by rw [ho]; rfl),bind_apply]
        dsimp only [modify_apply]
        split
        · exact ⟨_,rfl⟩
        · exact ⟨_,rfl⟩
  · next hc =>
    rw [if_neg hc]
    exact ⟨_,rfl⟩

/-- A publication the journal takes replaces the session by its committed copy. -/
theorem publish_taken {report : ExecutionReport}
    (hj : (publish w r report session phase rt).2.persistFailures=rt.persistFailures) :
    ∃ commit candidate,(publish w r report session phase rt).2.sessions=
      rt.sessions.modify r.session.value fun _ =>
        (session.committedPhase phase.id commit w.now).withCandidate candidate := by
  have ⟨⟨provenance,committed,concluded⟩,t,ht⟩ := stage_total w r session phase rt
  have ⟨commit,candidate,_,he⟩ := stage_ok w r ht
  have hstage := stage_aside w r session phase rt
  rw [ht] at hstage
  have hp := persist_aside w committed t
  have hr (x : PhaseRunReport) : Within Aside (release phase provenance >>= fun _ => pure x) :=
    (release_aside phase provenance).bind fun _ => .pure x
  unfold publish at hj ⊢
  rw [bind_ok ht] at hj ⊢
  refine ⟨commit,candidate,?_⟩
  cases hx : persist w committed t with
  | mk result u =>
    rw [hx] at hp
    cases result with
    | error e =>
      have hlt := persist_refused w hx
      dsimp only at hj
      rw [bind_error hx] at hj
      have hle := hstage.failures
      dsimp only at hj hle
      omega
    | ok _ =>
      dsimp only
      rw [bind_ok hx,bind_ok (rfl : modify _ u=_)]
      refine (hr _ _).sessions.trans ?_
      show u.sessions.modify _ _=_
      rw [hp.sessions,hstage.sessions,he]

/-- A phase is committed exactly when the checks of `commit_reserved` pass: none of them looks at
a file behind a source. -/
theorem commits_iff_passes {report : ExecutionReport}
    (hj : (commitReserved w r report rt).2.persistFailures=rt.persistFailures) :
    rt.Commits w r report ↔ ∃ session phase,rt.Passes w r session phase := by
  constructor
  · rintro ⟨p,p',hp,hn,hp',hc⟩
    have ⟨_,session,phase,t,hcm,_,hid,hr,hv⟩ := commitReserved_entered w r hp hp' hn hc
    have ⟨toolchains,htc,he⟩ := reprobe_toolchains hr
    exact ⟨session,phase,hcm,hid,toolchains,htc,he ▸ hv⟩
  · rintro ⟨session,phase,hcm,hid,toolchains,htc,hv⟩
    have ⟨hs,hp,_,_,hst⟩ := committable_ok r hcm
    have hreprobe : ∃ t,reprobe w r session phase rt=(.ok (),t) := reprobe_of_toolchains htc
    have ⟨t,ht⟩ := hreprobe
    have ⟨toolchains',htc',he⟩ := reprobe_toolchains ht
    rw [htc] at htc'
    cases htc'
    have hx : commitReserved w r report rt=publish w r report session phase t := by
      unfold commitReserved
      rw [bind_ok (rfl : get rt=_),bind_ok (a := (session,phase)) (t := rt) (by rw [hcm]; rfl)]
      dsimp only
      rw [bind_ok ht,bind_ok (rfl : get t=_),he,if_pos hv]
    have hle := (reprobe_within w r session phase rt (σ := fun _ => Eq) (P := PhaseRecord.Quiet)).failures
    rw [ht] at hle
    have hle' := (publish_carries w r report session phase t).failures
    rw [hx] at hj
    have hj' : (publish w r report session phase t).2.persistFailures=t.persistFailures := by
      dsimp only at hle
      omega
    have ⟨commit,candidate,hset⟩ := publish_taken hj'
    have hl : t.find r.session=some session := by rw [find_of_sessions (reprobe_sessions w r ht),hs]
    refine ⟨phase,phase.committed commit w.now,?_,?_,?_,?_⟩
    · rw [Runtime.phase,hs,Option.bind_some,hp]
    · rw [hst]
      decide
    · rw [hx,phase_modifySession hset,if_pos rfl,hl,Option.map_some,Option.bind_some,
        CompilerSession.findPhase,projected_phases]
      have hf := session.findPhase_modifyPhase phase.id r.phase (·.committed commit w.now)
      rw [if_pos hid,hp] at hf
      exact hf
    · unfold PhaseRecord.committed
      rw [PhaseRecord.recordTransition_state]
      show PhaseRecord.reach phase.state .committed=.committed
      rw [hst]
      decide

/-- A changed source keeps the phase from its commit exactly when no source has changed, or one of
the checks of `commit_reserved` refuses the commit anyway. -/
theorem fenced_iff_unchanged {report : ExecutionReport} {session : CompilerSession}
    (fs : FileSystem) (hs : rt.find r.session=some session)
    (hj : (commitReserved w r report rt).2.persistFailures=rt.persistFailures) :
    (rt.sourcesUnchanged fs session=false → ¬rt.Commits w r report) ↔
      rt.sourcesUnchanged fs session ∨ ¬∃ phase,rt.Passes w r session phase := by
  have hpass : rt.Commits w r report ↔ ∃ phase,rt.Passes w r session phase := by
    rw [commits_iff_passes hj]
    constructor
    · rintro ⟨session',phase,h⟩
      cases hs.symm.trans (committable_ok r h.committable).1
      exact ⟨phase,h⟩
    · rintro ⟨phase,h⟩
      exact ⟨session,phase,h⟩
  rw [hpass]
  cases rt.sourcesUnchanged fs session <;> simp

end Runtime

namespace Sample

def sourced : World :=
  { world with sourceFiles := [.ok { path := ascii "main.c",content := .of (ascii "int a;")
                                     sizeBytes := 6 }] }

/-- A phase whose outputs are validated, about to commit. -/
def validated : System :=
  (ready.apply (.call (.createSession request) sourced)).run (phaseRun.take 9)

/-- The commit `validated` is about to make. -/
def committing : Reservation × ExecutionReport :=
  match (validated.calls[2]? : Option Call) with
  | some (.phase { pc := .commit r report,.. }) => (r,report)
  | _ => ({},{})

/-- The file as it was admitted, and after an edit. -/
def admittedFiles : FileSystem := fun path => if path=ascii "main.c" then some (ascii "int a;") else none
def editedFiles : FileSystem := fun path => if path=ascii "main.c" then some (ascii "int b;") else none

end Sample

namespace Runtime

theorem validated_commits :
    Sample.validated.rt.Commits Sample.world Sample.committing.1 Sample.committing.2 := by
  have hp : (Sample.validated.rt.phase Sample.committing.1.session
      Sample.committing.1.phase).any (·.state ≠ .committed) := by decide +kernel
  have hp' : ((commitReserved Sample.world Sample.committing.1 Sample.committing.2
      Sample.validated.rt).2.phase Sample.committing.1.session Sample.committing.1.phase).any
        (·.state=.committed) := by decide +kernel
  have ⟨p,hp,hn⟩ := Option.any_eq_true _ _ |>.1 hp
  have ⟨p',hp',hc⟩ := Option.any_eq_true _ _ |>.1 hp'
  exact ⟨p,p',hp,of_decide_eq_true hn,hp',of_decide_eq_true hc⟩

/-- The commit of a phase whose source is as it was admitted. -/
theorem fenced_of_admitted : ∃ session,
    Sample.validated.rt.find Sample.committing.1.session=some session ∧
    (Sample.validated.rt.sourcesUnchanged Sample.admittedFiles session=false →
      ¬Sample.validated.rt.Commits Sample.world Sample.committing.1 Sample.committing.2) := by
  have hu : (Sample.validated.rt.find Sample.committing.1.session).any
    (Sample.validated.rt.sourcesUnchanged Sample.admittedFiles) := by decide +kernel
  have ⟨session,hs,hu⟩ := Option.any_eq_true _ _ |>.1 hu
  exact ⟨session,hs,(fenced_iff_unchanged Sample.admittedFiles hs (by decide +kernel)).2 (.inl hu)⟩

/-- A phase commits after the one source of its session was edited. -/
theorem not_fenced_of_edited : ∃ session,
    Sample.validated.rt.find Sample.committing.1.session=some session ∧
    Sample.validated.rt.sourcesUnchanged Sample.editedFiles session=false ∧
    Sample.validated.rt.Commits Sample.world Sample.committing.1 Sample.committing.2 := by
  have hu : (Sample.validated.rt.find Sample.committing.1.session).any
    (!Sample.validated.rt.sourcesUnchanged Sample.editedFiles ·) := by decide +kernel
  have ⟨session,hs,hu⟩ := Option.any_eq_true _ _ |>.1 hu
  exact ⟨session,hs,by simpa using hu,validated_commits⟩

end Runtime

end CompilerFabric
