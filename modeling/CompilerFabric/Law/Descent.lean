import CompilerFabric.Law.Derivation
import CompilerFabric.Law.Progress

namespace CompilerFabric

open Base Base.Action

theorem uniqueAfter_subset {α : Type} (eq : α → α → Bool) (x : α) (l : List α) :
    uniqueAfter eq x l ⊆ x::l := by
  induction l generalizing x with
  | nil => exact List.Subset.refl _
  | cons y l ih =>
    rw [uniqueAfter]
    split
    · exact List.Subset.trans (ih x) (List.cons_subset_cons x (List.subset_cons_self y l))
    · exact List.cons_subset_cons x (ih y)

theorem uniqueBy_subset {α : Type} (eq : α → α → Bool) (l : List α) : uniqueBy eq l ⊆ l := by
  cases l with
  | nil => exact List.Subset.refl _
  | cons x l => exact uniqueAfter_subset eq x l

namespace Runtime

variable {rt t : Runtime} {w : World} {sid who : CompilerSessionId} {pid : CompilerPhaseId}
  {session : CompilerSession} {o : Ref .intermediate} {C : List CompilerSessionId}

theorem mem_inputsOf : o ∈ rt.inputsOf sid pid ↔ ∃ p,rt.phase sid pid=some p ∧ o ∈ p.inputs := by
  unfold inputsOf
  cases rt.phase sid pid with
  | none => simp
  | some p => simp

theorem Keeps.inputsOf {σ : UInt64 → SessionState → SessionState → Prop}
    {P : PhaseRecord → PhaseRecord → Prop} (h : Keeps σ P rt t)
    (hP : ∀ p q,P p q → q.binding=p.binding) (hs : rt.find sid=some session) :
    t.inputsOf sid pid=rt.inputsOf sid pid := by
  have ⟨s',hs',he⟩ := h.sessions sid.value session hs
  have hrt : rt.phase sid pid=session.findPhase pid := by
    rw [Runtime.phase,hs]
    rfl
  have ht : t.phase sid pid=s'.findPhase pid := by
    rw [Runtime.phase,Runtime.find,hs']
    rfl
  unfold Runtime.inputsOf
  rw [hrt,ht]
  cases hp : session.findPhase pid with
  | none =>
    cases hq : s'.findPhase pid with
    | none => rfl
    | some q =>
      obtain ⟨p,hp',_⟩ := he.before hq
      cases hp.symm.trans hp'
  | some p =>
    obtain ⟨q,hq,hpq⟩ := he.after hp
    rw [hq]
    exact congrArg (·.2.2.2.2.2.2.2.2.2.2.1) (hP p q hpq)

/-- The inputs of a phase are outputs of phases of its session. -/
theorem resolveInputs_outputs {p : PhaseRecord} {inputs : List (Ref .intermediate)}
    (h : rt.resolveInputs session p=.ok inputs) (hf : rt.Filed) (ho : o ∈ inputs) :
    ∃ pid producer,session.findPhase pid=some producer ∧ ∃ output ∈ producer.outputs,
      o.id=output.id := by
  simp only [resolveInputs,do_eq_ok] at h
  obtain ⟨node,_,found,hfound,_,_,he⟩ := h
  cases he
  have hm := (List.mem_insertionSort _).1 (uniqueBy_subset _ _ ho)
  obtain ⟨refs,hrefs,hor⟩ := List.mem_flatten.1 hm
  obtain ⟨dependency,_,hd⟩ := mem_of_mapM_ok hfound hrefs
  obtain ⟨producer,hp,_,hout⟩ := inputsFrom_ok.1 hd
  obtain ⟨output,hmem,hg⟩ := mem_of_mapM_ok hout hor
  obtain ⟨a,ha,_,_,he⟩ := givenOutput_ok.1 hg
  refine ⟨dependency,producer,hp,output,hmem,?_⟩
  rw [← he]
  exact (hf output.id a ha).1

theorem reserve_inputs {isRetry : Bool} {result : Result Reservation}
    (h : reserve w who pid isRetry rt=(result,t)) (hf : rt.Filed) {q : CompilerPhaseId}
    (ho : o ∈ t.inputsOf sid q) : o ∈ rt.inputsOf sid q ∨
      sid=who ∧ ∃ s k producer,rt.find who=some s ∧ s.findPhase k=some producer ∧
        ∃ output ∈ producer.outputs,o.id=output.id := by
  rcases reserve_spec w who pid h with ⟨⟨hs,_⟩,_⟩ | ⟨s,p,inputs,r,hr,_⟩
  · have he : t.inputsOf sid q=rt.inputsOf sid q := by
      unfold inputsOf Runtime.phase
      rw [find_of_sessions hs]
    exact .inl (he ▸ ho)
  · have ha := (admission_iff who pid).1 hr.admitted
    have ⟨x,hx,hox⟩ := mem_inputsOf.1 ho
    rw [phase_modifySession hr.sessions] at hx
    split_ifs at hx with hsid
    · subst hsid
      rw [ha.session,Option.map_some,Option.bind_some] at hx
      have hfind : (s.reserved r inputs isRetry w.now).findPhase q=
          (s.modifyPhase r.phase fun p => p.reserved s r inputs isRetry w.now).findPhase q := rfl
      rw [hfind,s.findPhase_modifyPhase] at hx
      split_ifs at hx
      · have ⟨y,_,he⟩ := Option.map_eq_some_iff.1 hx
        right
        refine ⟨rfl,s,?_⟩
        have hin : x.inputs=inputs := by
          have ⟨_,_,hframe⟩ := @reserved_frame r y s inputs isRetry w.now
          rw [← he,hframe]
          rfl
        rw [hin] at hox
        have ⟨k,producer,hp,output,hout,hid⟩ := resolveInputs_outputs ha.inputs hf hox
        exact ⟨k,producer,ha.session,hp,output,hout,hid⟩
      · refine .inl (mem_inputsOf.2 ⟨x,?_,hox⟩)
        rw [Runtime.phase,ha.session,Option.bind_some,hx]
    · exact .inl (mem_inputsOf.2 ⟨x,hx,hox⟩)

/-- What sessions hold they go on holding as others come. -/
def HoldsOn (rt t : Runtime) : Prop :=
  ∀ i h,rt.estate.sessions i=some h → t.estate.sessions i=some h

instance : IsPreorder Runtime HoldsOn where
  refl _ _ _ h := h
  trans _ _ _ h h' i g hg := h' i g (h i g hg)

theorem holdsOn_of_estate {α : Type} {x : Op α} (h : Within SameEstate x) : Within HoldsOn x := by
  intro rt i g hg
  have he : (x rt).2.estate=rt.estate := h rt
  rwa [he]

theorem insert_holdsOn (session : CompilerSession) (k : UInt64) :
    Within HoldsOn (modify fun rt => { rt with
      sessions := rt.sessions.insertIfNew k session } : Op Unit) := by
  intro rt i g hg
  have hg : rt.sessions[i]?.map (·.holding)=some g := hg
  have ⟨s,hs,he⟩ := Option.map_eq_some_iff.1 hg
  show (rt.sessions.insertIfNew k session)[i]?.map (·.holding)=some g
  rw [Std.ExtTreeMap.getElem?_insertIfNew,if_neg,hs]
  · exact congrArg some he
  · rintro ⟨hk,hn⟩
    have hk := Std.LawfulEqCmp.eq_of_compare hk
    rw [hk] at hn
    exact hn (Std.ExtTreeMap.mem_iff_isSome_getElem?.2 (by rw [hs]; rfl))

theorem createSession_holdsOn (request : CompileRequest) :
    Within HoldsOn (createSession w request) := by
  refine Within.bind ?_ fun parts => Within.get.bind fun _ => ?_
  · refine (sessionParts_draws w request).mono fun rt t hd i g hg => ?_
    rw [hd.estate]
    exact hg
  · refine (holdsOn_of_estate (persist_estate w _)).bind fun _ => ?_
    refine (insert_holdsOn _ _).bind fun _ => ?_
    exact (holdsOn_of_estate recordEvidence_estate).bind fun _ => .pure _

theorem adoptSession_holdsOn (session : CompilerSession) :
    Within HoldsOn (adoptSession w session) := by
  refine Within.get.bind fun _ => (Within.ofExcept _).bind fun _ => (Within.ofExcept _).bind fun _ => ?_
  refine Within.bind (fun _ _ _ h => h) fun _ => ?_
  refine (holdsOn_of_estate (fencePhases_estate w _ _ _)).bind fun fenced => ?_
  refine (holdsOn_of_estate (persist_estate w _)).bind fun _ => ?_
  exact (insert_holdsOn _ _).bind fun _ => .pure _

/-- `create_session` returns the identity it drew. -/
theorem createSession_drawn {request : CompileRequest} {reference : Ref .session}
    (h : createSession w request rt=(.ok reference,t)) : reference.id=rt.sessionIds.next.1 := by
  have ⟨parts,_,hx,h⟩ := seq_eq_ok.1 h
  have ⟨_,_,_,h⟩ := seq_eq_ok.1 h
  have ⟨_,_,_,h⟩ := seq_eq_ok.1 h
  have ⟨_,_,_,h⟩ := seq_eq_ok.1 h
  have ⟨_,_,_,h⟩ := seq_eq_ok.1 h
  cases h
  exact (sessionParts_ok w hx).1

/-- A session that `create_session` adds lists nothing, and its phases have no inputs. -/
theorem createSession_bare {request : CompileRequest} (hn : rt.find sid=none) :
    (∀ id,¬(createSession w request rt).2.estate.Made sid id) ∧
      ∀ pid,(createSession w request rt).2.inputsOf sid pid=[] := by
  cases hs : (createSession w request rt).2.find sid with
  | none =>
    constructor
    · rintro id ⟨g,hg,_⟩
      obtain ⟨s,hs',_⟩ := Option.map_eq_some_iff.1 hg
      cases hs.symm.trans hs'
    · intro pid
      rw [inputsOf,Runtime.phase,hs]
      rfl
  | some session =>
    obtain ⟨parts,t,_,_,he,_⟩ := createSession_new hn hs
    subst he
    constructor
    · rintro id ⟨g,hg,hid⟩
      obtain ⟨s,hs',he⟩ := Option.map_eq_some_iff.1 hg
      cases hs.symm.trans hs'
      rw [← he] at hid
      cases hid
    · intro pid
      rw [inputsOf,Runtime.phase,hs,Option.bind_some]
      cases hp : (newSession request parts t.epoch w.now).findPhase pid with
      | none => rfl
      | some p =>
        obtain ⟨_,_,_,_,he⟩ := newSession_phase hp
        rw [he]
        rfl

theorem made_congr (h : t.estate.sessions sid.value=rt.estate.sessions sid.value)
    {id : IntermediateArtifactId} : t.estate.Made sid id ↔ rt.estate.Made sid id := by
  rw [Estate.Made,Estate.Made,h]

/-- What a session of `C` lists was made from what it listed before. -/
structure Descends (C : List CompilerSessionId) (rt : Runtime) : Prop where
  inputs : ∀ sid ∈ C,∀ pid,∀ o ∈ rt.inputsOf sid pid,rt.estate.Made sid o.id
  lineage : ∀ sid ∈ C,∀ id a,rt.estate.Made sid id → rt.artifacts.find id=some a →
    ∀ o ∈ a.lineageInputs,rt.estate.Made sid o.id ∧ o.id.value.toNat < id.value.toNat

/-- A session that registers outputs made from inputs it lists. -/
theorem Descends.derives {inputs : List (Ref .intermediate)} (h : rt.Descends C)
    (ha : rt.estate.Apart C) (hf : rt.Filed) (hu : rt.artifacts.allocator.spent=false)
    (hd : Derives inputs rt t) (hw : who ∈ C → ∀ o ∈ inputs,rt.estate.Made who o.id)
    (hmade : ∀ sid ∈ C,∀ id,t.estate.Made sid id → rt.estate.Made sid id ∨
      sid=who ∧ rt.artifacts.allocator.counter.toNat ≤ id.value.toNat)
    (hkept : ∀ sid ∈ C,∀ id,rt.estate.Made sid id → t.estate.Made sid id)
    (hin : ∀ sid ∈ C,∀ pid,∀ o ∈ t.inputsOf sid pid,rt.estate.Made sid o.id) :
    t.Descends C := by
  refine ⟨fun sid hs pid o ho => hkept sid hs o.id (hin sid hs pid o ho),?_⟩
  intro sid hs id a' hm hfind o ho
  rcases hd.entries id a' hfind with ⟨a,hold,_,hl⟩ | ⟨_,hl,_,hlow⟩
  · rw [hl] at ho
    rcases hmade sid hs id hm with hm | ⟨_,hlow⟩
    · have ⟨hm,hlt⟩ := h.lineage sid hs id a hm hold o ho
      exact ⟨hkept sid hs o.id hm,hlt⟩
    · -- an identity that is drawn now names nothing yet
      rcases (hf id a hold).2 with hlt | hspent
      · omega
      · rw [hu] at hspent
        cases hspent
  · rw [hl] at ho
    rcases hmade sid hs id hm with hm | ⟨rfl,_⟩
    · have hlt : id.value.toNat<rt.artifacts.allocator.counter.toNat := ha.made sid hs id hm
      omega
    · have hm := hw hs o ho
      have hlt : o.id.value.toNat<rt.artifacts.allocator.counter.toNat := ha.made sid hs o.id hm
      exact ⟨hkept sid hs o.id hm,by omega⟩

/-- Sessions that list nothing join the others. -/
theorem Descends.append {new : List CompilerSessionId} (h : rt.Descends C)
    (hn : ∀ sid ∈ new,(∀ id,¬rt.estate.Made sid id) ∧ ∀ pid,rt.inputsOf sid pid=[]) :
    rt.Descends (new++C) := by
  constructor
  · intro sid hs pid o ho
    rcases List.mem_append.1 hs with hs | hs
    · rw [(hn sid hs).2] at ho
      cases ho
    · exact h.inputs sid hs pid o ho
  · intro sid hs id a hm
    rcases List.mem_append.1 hs with hs | hs
    · exact absurd hm ((hn sid hs).1 id)
    · exact h.lineage sid hs id a hm

/-- A session of `C` lists what its phases produced, down to what that was made from. -/
theorem Descends.drawn {s : CompilerSession} (h : rt.Descends C) (ha : rt.estate.Apart C)
    (hf : rt.Filed) (hc : sid ∈ C) (hs : rt.find sid=some s) : rt.Drawn s := by
  have hheld : rt.estate.sessions sid.value=some s.holding := Option.map_eq_some_iff.2 ⟨s,hs,rfl⟩
  have hmade (id : IntermediateArtifactId) : rt.estate.Made sid id ↔ id ∈ s.listed := by
    constructor
    · rintro ⟨g,hg,hid⟩
      cases hheld.symm.trans hg
      exact hid
    · exact fun hid => ⟨s.holding,hheld,hid⟩
  refine ⟨fun id a hfind => (hf id a hfind).1,?_,?_⟩
  · intro pid p hp o ho
    have hhas : rt.estate.Has sid p.holding :=
      ⟨s.holding,pid.value,hheld,Option.map_eq_some_iff.2 ⟨p,hp,rfl⟩⟩
    exact (hmade o.id).1 (ha.outputs sid hc _ hhas o.id (List.mem_map_of_mem ho))
  · intro id hid i hi
    have hi : i ∈ ((rt.artifacts.find id).map fun a => a.lineageInputs.map (·.id)).getD [] := hi
    cases hfind : rt.artifacts.find id with
    | none =>
      rw [hfind] at hi
      cases hi
    | some a =>
      rw [hfind] at hi
      have ⟨o,ho,he⟩ := List.mem_map.1 hi
      subst he
      have ⟨hm,hlt⟩ := h.lineage sid hc id a ((hmade id).2 hid) hfind o ho
      exact ⟨(hmade o.id).1 hm,UInt64.lt_iff_toNat_lt.2 hlt⟩

end Runtime

namespace System

variable {sys : System} {e : Event} {sid : CompilerSessionId} {pid : CompilerPhaseId}
  {C : List CompilerSessionId} {s : CompilerSession} {o : Ref .intermediate}

/-- Only a reservation gives a phase other inputs, and they are outputs of phases of its session. -/
theorem apply_inputs (hp : e.inProcess) (hf : sys.rt.Filed) (hs : sys.rt.find sid=some s)
    (ho : o ∈ (sys.apply e).rt.inputsOf sid pid) : o ∈ sys.rt.inputsOf sid pid ∨
      ∃ k producer,s.findPhase k=some producer ∧ ∃ output ∈ producer.outputs,o.id=output.id := by
  have stays {P : PhaseRecord → PhaseRecord → Prop} {σ : UInt64 → SessionState → SessionState → Prop}
      {rt : Runtime} (hr : rt.sessions=sys.rt.sessions) (h : Runtime.Keeps σ P rt (sys.apply e).rt)
      (hP : ∀ p q,P p q → q.binding=p.binding) : o ∈ sys.rt.inputsOf sid pid := by
    have hfind : rt.find sid=some s := by rw [Runtime.find_of_sessions hr,hs]
    rw [h.inputsOf hP hfind] at ho
    have hi : rt.inputsOf sid pid=sys.rt.inputsOf sid pid := by
      rw [Runtime.inputsOf,Runtime.inputsOf,Runtime.phase,Runtime.phase,Runtime.find_of_sessions hr]
    rwa [hi] at ho
  rcases apply_cases hp with h | ⟨w,run,hr,hpc | ⟨r,report,hpc⟩⟩
  · exact .inl (stays rfl h fun _ _ h => h.binding)
  · rw [hr.reserve hpc] at ho
    cases hx : Runtime.reserve w run.session run.phase run.isRetry (sys.rt.facing w) with
    | mk result t =>
      rw [hx] at ho
      have hf : (sys.rt.facing w).Filed := hf
      rcases Runtime.reserve_inputs hx hf ho with hold | ⟨rfl,s',k,producer,hs',h⟩
      · exact .inl hold
      · cases hs.symm.trans hs'
        exact .inr ⟨k,producer,h⟩
  · have hk := Runtime.commitReserved_keeps w r report (sys.rt.facing w)
    rw [← hr.commit hpc] at hk
    have hs : (sys.rt.facing w).sessions=sys.rt.sessions := rfl
    exact .inl (stays hs hk fun _ _ h => h.binding)

/-- What an event has a session list is registered for a session the event is on. -/
theorem apply_made (hs : sys.Staffed) (hp : e.inProcess) (hf : sys.rt.find sid=some s)
    {id : IntermediateArtifactId} : ((sys.apply e).rt.estate.Made sid id → sys.rt.estate.Made sid id ∨
      sys.on e=some sid ∧ sys.rt.artifacts.allocator.counter.toNat ≤ id.value.toNat) ∧
    (sys.rt.estate.Made sid id → (sys.apply e).rt.estate.Made sid id) := by
  cases ho : sys.on e with
  | some who =>
    have hm := (apply_acts hs ho).estate
    refine ⟨fun h => ?_,hm.keeps_made⟩
    rcases hm.made h with h | ⟨rfl,h⟩
    · exact .inl h
    · exact .inr ⟨rfl,h⟩
  | none =>
    have holds {w : World} {t : Runtime} (h : Runtime.HoldsOn (sys.rt.facing w) t) :
        t.estate.Made sid id ↔ sys.rt.estate.Made sid id := by
      refine Runtime.made_congr ?_
      have hg : sys.rt.estate.sessions sid.value=some s.holding :=
        Option.map_eq_some_iff.2 ⟨s,hf,rfl⟩
      rw [hg]
      exact h sid.value s.holding hg
    have same {w : World} {t : Runtime} (h : t.estate=(sys.rt.facing w).estate) :
        t.estate.Made sid id ↔ sys.rt.estate.Made sid id := by
      rw [h]
      rfl
    suffices hi : (sys.apply e).rt.estate.Made sid id ↔ sys.rt.estate.Made sid id from
      ⟨fun h => .inl (hi.1 h),hi.2⟩
    cases e with
    | restart options adapters w => exact hp.elim
    | call command w =>
      simp only [apply]
      split
      · cases command with
        | createSession request =>
          have h := @Runtime.createSession_holdsOn w request (sys.rt.facing w)
          exact holds h
        | adoptSession session =>
          have h := @Runtime.adoptSession_holdsOn w session (sys.rt.facing w)
          exact holds h
        | _ => exact same (Command.start_estate ho (by rintro _ ⟨⟩) (by rintro _ ⟨⟩))
      · exact Iff.rfl
    | resume index w =>
      simp only [apply]
      split
      · cases hc : sys.calls[index]? with
        | none => exact Iff.rfl
        | some call =>
          have ho : call.on=none := by
            simp only [on,hc,Option.bind_some] at ho
            exact ho
          cases call with
          | session run => exact same (run.step_estate w sys.calls (sys.rt.facing w))
          | recovery session plan =>
            exact same (Runtime.endRecovery_estate w session plan (sys.rt.facing w))
          | stopping => exact same (Runtime.endShutdown_estate w (sys.rt.facing w))
          | phase | cancel => cases ho
          | _ => exact Iff.rfl
      · exact Iff.rfl

/-- A session an event makes lists nothing, and its phases have no inputs. -/
theorem makes_bare (ha : sys.rt.estate.Apart C) (hm : sid ∈ sys.makes e) :
    (∀ id,¬(sys.apply e).rt.estate.Made sid id) ∧ ∀ pid,(sys.apply e).rt.inputsOf sid pid=[] := by
  unfold makes at hm
  split at hm
  · next request w =>
    split at hm
    · next hup =>
      cases hx : Runtime.createSession w request (sys.rt.facing w) with
      | mk result t =>
        rw [hx] at hm
        cases result with
        | error _ => cases hm
        | ok reference =>
          have hid : sid=reference.id := List.mem_singleton.1 hm
          have hn : (sys.rt.facing w).find sid=none := by
            cases hf : (sys.rt.facing w).find sid with
            | none => rfl
            | some s =>
              have hlt := ha.below sid.value s.holding (Option.map_eq_some_iff.2 ⟨s,hf,rfl⟩)
              rw [hid,Runtime.createSession_drawn hx] at hlt
              exact absurd sys.rt.sessionIds.le_drawn (Nat.not_le.2 hlt)
          have hrt : (sys.apply (.call (.createSession request) w)).rt=
              (Runtime.createSession w request (sys.rt.facing w)).2 := by
            simp only [apply,hup,if_true,Command.start,hx]
          rw [hrt]
          exact Runtime.createSession_bare hn
    · cases hm
  · cases hm

/-- One event of a process. -/
theorem apply_descends (hs : sys.Staffed) (hp : e.inProcess) (hf : sys.rt.Filed)
    (ha : sys.rt.estate.Apart C) (hu : sys.rt.estate.spent=false) (hd : sys.rt.Descends C) :
    (sys.apply e).rt.Descends (sys.makes e++C) := by
  have found {sid : CompilerSessionId} (hsid : sid ∈ C) : ∃ s,sys.rt.find sid=some s := by
    obtain ⟨g,hg,_⟩ := ha.known sid hsid
    obtain ⟨s,hs,_⟩ := Option.map_eq_some_iff.1 hg
    exact ⟨s,hs⟩
  have hspent : sys.rt.artifacts.allocator.spent=false := by
    simp only [Estate.spent,Bool.or_eq_false_iff] at hu
    exact hu.2
  refine Runtime.Descends.append ?_ fun sid hm => makes_bare ha hm
  have hin : ∀ sid ∈ C,∀ pid,∀ o ∈ (sys.apply e).rt.inputsOf sid pid,
      sys.rt.estate.Made sid o.id := by
    intro sid hsid pid o ho
    obtain ⟨s,hfind⟩ := found hsid
    rcases apply_inputs hp hf hfind ho with hold | ⟨k,producer,hk,output,hout,he⟩
    · exact hd.inputs sid hsid pid o hold
    · rw [he]
      have hhas : sys.rt.estate.Has sid producer.holding :=
        ⟨s.holding,k.value,Option.map_eq_some_iff.2 ⟨s,hfind,rfl⟩,
          Option.map_eq_some_iff.2 ⟨producer,hk,rfl⟩⟩
      exact ha.outputs sid hsid _ hhas output.id (List.mem_map_of_mem hout)
  have hkept : ∀ sid ∈ C,∀ id,sys.rt.estate.Made sid id → (sys.apply e).rt.estate.Made sid id := by
    intro sid hsid id
    obtain ⟨s,hfind⟩ := found hsid
    exact (apply_made hs hp hfind).2
  have hderives := sys.apply_derives hp
  cases ho : sys.on e with
  | none =>
    have hr : sys.registers e=[] := by
      rcases sys.registers_on (e := e) hs with hr | ⟨who,_,hw,_⟩
      · exact hr
      · rw [ho] at hw
        cases hw
    rw [hr] at hderives
    refine @hd.derives sys.rt _ ⟨0⟩ C [] ha hf hspent hderives (by rintro _ _ ⟨⟩) ?_ hkept hin
    intro sid hsid id hm
    obtain ⟨s,hfind⟩ := found hsid
    rcases (apply_made hs hp hfind).1 hm with hm | ⟨hon,_⟩
    · exact .inl hm
    · rw [ho] at hon
      cases hon
  | some who =>
    refine @hd.derives sys.rt _ who C _ ha hf hspent hderives ?_ ?_ hkept hin
    · intro hwho o hmem
      rcases sys.registers_on hs with hr | ⟨who',pid,hw,hr⟩
      · rw [hr] at hmem
        cases hmem
      · cases ho.symm.trans hw
        rw [hr] at hmem
        exact hd.inputs who hwho pid o hmem
    · intro sid hsid id hm
      obtain ⟨s,hfind⟩ := found hsid
      rcases (apply_made hs hp hfind).1 hm with hm | ⟨hon,hle⟩
      · exact .inl hm
      · cases ho.symm.trans hon
        exact .inr ⟨rfl,hle⟩

/-- In a run that exhausts no allocator the lists of the sessions it made are closed. -/
theorem descends_run {options : RuntimeOptions} {adapters : List Adapter} {file : Bytes} {w : World}
    {events : List Event} (hp : ∀ e ∈ events,e.inProcess)
    (h : along unspent (boot options adapters file w) events) :
    ((boot options adapters file w).run events).rt.Filed ∧
      (((boot options adapters file w).run events).rt.estate.spent=false →
        ((boot options adapters file w).run events).rt.Descends
          ((boot options adapters file w).made events)) := by
  induction events using List.reverseRecOn with
  | nil =>
    refine ⟨Runtime.create_filed w options adapters file,fun _ => ⟨?_,?_⟩⟩
    · intro sid hs
      cases hs
    · intro sid hs
      cases hs
  | append_singleton events e ih =>
    rw [along_snoc,Bool.and_eq_true] at h
    have hp' (x : Event) (hx : x ∈ events) : x.inProcess := hp x (List.mem_append_left _ hx)
    have ⟨hf,hd⟩ := ih hp' h.1
    have ⟨hs,ha⟩ := apart_run hp' h.1
    have hu := unspent_eq.1 h.2
    have hin := hp e (List.mem_append_right _ (List.mem_singleton.2 rfl))
    rw [run_snoc,made_snoc]
    exact ⟨(apply_derives hin).filed hf,fun _ => apply_descends hs hin hf (ha hu) hu (hd hu)⟩

/-- A candidate is recorded with exactly what its image was made from, all of it standing, where
everything its session ever produced went into the image and stands. -/
theorem lineage_exact_iff {options : RuntimeOptions} {adapters : List Adapter} {file : Bytes}
    {w : World} {events : List Event} {p : PhaseRecord} {image : IntermediateArtifact}
    {c : FinalCandidate} (hp : ∀ x ∈ events,x.inProcess)
    (hs : along unspent (boot options adapters file w) (events++[e]) ∧
        sid ∈ (boot options adapters file w).made events ∨
      ((boot options adapters file w).run events).rt.Drawn s)
    (h : ((boot options adapters file w).run events).Concludes e sid s p image c) :
    (((boot options adapters file w).run events).apply e).rt.artifacts.Traced image.id c.lineage ↔
      ((boot options adapters file w).run events).rt.Tapers s p image := by
  refine h.traced_iff ?_
  rcases hs with ⟨hu,hm⟩ | hd
  · rw [along_snoc,Bool.and_eq_true] at hu
    have hlast := unspent_eq.1 hu.2
    have ⟨_,ha⟩ := apart_run hp hu.1
    have ⟨hf,hd⟩ := descends_run hp hu.1
    have ⟨_,_,_,_,_,_,_,hfind,_⟩ := h
    exact (hd hlast).drawn (ha hlast) hf hm hfind
  · exact hd

/-- The call stands before the commit of the phase. -/
def commits (sys : System) (index : Nat) (sid : CompilerSessionId) (pid : CompilerPhaseId) : Bool :=
  match sys.calls[index]? with
  | some (.phase { pc := .commit r _,.. }) => r.session=sid && r.phase=pid
  | _ => false

/-- What the next part of the call concludes, if it commits the phase and records a candidate. -/
def concluding (sys : System) (index : Nat) (w : World) (sid : CompilerSessionId)
    (pid : CompilerPhaseId) :
    Option (CompilerSession × PhaseRecord × IntermediateArtifact × FinalCandidate) :=
  (sys.rt.find sid).bind fun s => (s.findPhase pid).bind fun p =>
    (Runtime.finalImage sys.rt.artifacts p.outputs).bind fun image =>
      ((sys.apply (.resume index w)).rt.find sid).bind fun s' =>
        if sys.up && sys.commits index sid pid && p.state ≠ .committed &&
            ((sys.apply (.resume index w)).phase sid pid).any (·.state=.committed) &&
            !s.candidatePresent && s'.candidatePresent && s'.candidate.completeLineage then
          some (s,p,image,s'.candidate)
        else none

theorem Concludes.of_concluding {index : Nat} {w : World} {p : PhaseRecord}
    {image : IntermediateArtifact} {c : FinalCandidate}
    (h : sys.concluding index w sid pid=some (s,p,image,c)) :
    sys.Concludes (.resume index w) sid s p image c := by
  unfold concluding at h
  have ⟨s,hs,h⟩ := Option.bind_eq_some_iff.1 h
  have ⟨p,hp,h⟩ := Option.bind_eq_some_iff.1 h
  have ⟨image,hi,h⟩ := Option.bind_eq_some_iff.1 h
  have ⟨s',hs',h⟩ := Option.bind_eq_some_iff.1 h
  split at h
  · next hall =>
    cases h
    simp only [Bool.and_eq_true,decide_eq_true_eq,Bool.not_eq_true'] at hall
    have ⟨⟨⟨⟨⟨⟨hup,hcommits⟩,hn⟩,hc⟩,hfirst⟩,hpresent⟩,hcomplete⟩ := hall
    unfold commits at hcommits
    split at hcommits
    · next session phase isRetry retry direct r report hcall =>
      simp only [Bool.and_eq_true,decide_eq_true_eq] at hcommits
      have ⟨hsid,hpid⟩ := hcommits
      subst hsid hpid
      refine ⟨w,_,r,report,⟨hup,index,rfl,hcall⟩,rfl,rfl,hs,hp,hn,hi,hc,?_,hcomplete⟩
      refine ⟨s,s',hs,hs',hpresent,rfl,?_⟩
      rintro ⟨hf,_⟩
      rw [hfirst] at hf
      cases hf
    · cases hcommits
  · cases h

/-- What a session lists is looked through for something left over or withdrawn. -/
theorem tapers_of_listed {index n : Nat} {w : World}
    (h : (sys.concluding index w sid pid).any fun x => x.2.2.2.lineage.length=n &&
      x.1.listed.all fun id =>
        (id=x.2.2.1.id || x.1.listed.any (id ∈ sys.rt.artifacts.lineage.next ·)) &&
        (sys.rt.artifacts.find id).any fun a =>
          a.state=.valid && (a.authority=.authoritative || id ∈ x.2.1.outputs.map (·.id))) :
    ∃ s p image c,sys.Concludes (.resume index w) sid s p image c ∧ sys.rt.Tapers s p image ∧
      c.lineage.length=n := by
  have ⟨⟨s,p,image,c⟩,hc,hall⟩ := (Option.any_eq_true _ _).1 h
  simp only [Bool.and_eq_true,Bool.or_eq_true,decide_eq_true_eq,List.all_eq_true,
    List.any_eq_true,Option.any_eq_true] at hall
  refine ⟨s,p,image,c,.of_concluding hc,⟨?_,?_⟩,hall.1⟩
  · intro id hid hne
    exact ((hall.2 id hid).1.resolve_left hne)
  · intro id hid
    exact (hall.2 id hid).2

theorem not_traced_of_corrupt {index : Nat} {w : World}
    (h : (sys.concluding index w sid pid).any fun x => x.2.2.2.lineage.any fun o =>
      ((sys.apply (.resume index w)).rt.artifacts.find o.id).any (·.state=.corrupt)) :
    ∃ s p image c,sys.Concludes (.resume index w) sid s p image c ∧
      ¬(sys.apply (.resume index w)).rt.artifacts.Traced image.id c.lineage := by
  have ⟨⟨s,p,image,c⟩,hc,hall⟩ := (Option.any_eq_true _ _).1 h
  refine ⟨s,p,image,c,.of_concluding hc,?_⟩
  intro ht
  have ⟨o,ho,hany⟩ := List.any_eq_true.1 hall
  have ⟨a,ha,hcorrupt⟩ := (Option.any_eq_true _ _).1 hany
  have ⟨a',ha',hv,_⟩ := ht.upheld o ho
  cases ha.symm.trans ha'
  rw [of_decide_eq_true hcorrupt] at hv
  cases hv

end System

namespace Sample

/-- The adapter finds the image corrupt. -/
def spoiled : World := { world with
  evidence := .ok { accepted := false,state := .corrupt,refusal := .outputCorrupt } }

/-- A phase whose image was corrupt runs again. -/
def mending : List Event :=
  [.call (.discoverToolchain family) world,
    .call (.createSession { request with policy := {
      retryableClasses := [FailureClass.outputInvalid.raw] } }) world,
    .call (.runPhase ⟨1⟩ ⟨1⟩) spoiled]++List.replicate 8 (.resume 2 spoiled)++
    .call (.retryPhase ⟨1⟩ ⟨1⟩) world::List.replicate 8 (.resume 3 world)

/-- A phase of `forked` that makes an object. -/
def forging (name : String) : World :=
  { forked with execution := .ok { report with
      outputs := [{ logicalName := ascii name,format := .coffObject,present := true }] } }

/-- Two units are compiled, the second one first, and the link of them is run up to its commit. -/
def building : List Event :=
  .call (.discoverToolchain family) world::.call (.createSession request) forked::
    (phaseCalls 2 ⟨2⟩ (forging "util.obj")++phaseCalls 3 ⟨1⟩ (forging "main.obj")++
      (phaseCalls 4 ⟨3⟩ forked).take 9)

end Sample

namespace System

theorem building_calls : ∀ e ∈ Sample.building,e.inProcess := by
  intro e he
  simp only [Sample.building,Sample.phaseCalls,List.take_succ_cons,List.take_replicate,
    List.mem_append,List.mem_cons,List.mem_replicate] at he
  rcases he with rfl | rfl | ((rfl | ⟨_,rfl⟩) | rfl | ⟨_,rfl⟩) | rfl | ⟨_,rfl⟩ <;> trivial

/-- The image and both objects are its lineage. -/
theorem lineage_exact_of_building : ∃ s p image c,
    (Sample.process.run Sample.building).Concludes (.resume 4 Sample.world) ⟨1⟩ s p image c ∧
    ((Sample.process.run Sample.building).apply (.resume 4 Sample.world)).rt.artifacts.Traced
      image.id c.lineage ∧ c.lineage.length=3 := by
  have h : (along unspent Sample.process (Sample.building++[.resume 4 Sample.world]),
      Sample.process.made Sample.building)=(true,[⟨1⟩]) := by decide +kernel
  have ⟨hu,hm⟩ := Prod.mk.inj h
  have hmade : ⟨1⟩ ∈ Sample.process.made Sample.building := by
    rw [hm]
    exact List.mem_singleton.2 rfl
  have ⟨s,p,image,c,hc,ht,hn⟩ := @tapers_of_listed (Sample.process.run Sample.building) ⟨1⟩ ⟨3⟩ 4 3
    Sample.world (by decide +kernel)
  refine ⟨s,p,image,c,hc,?_,hn⟩
  unfold Sample.process at hu hmade hc ht ⊢
  exact (lineage_exact_iff building_calls (.inl ⟨hu,hmade⟩) hc).2 ht

/-- The corrupt image of the first attempt is left in the lineage of the image of the second. -/
theorem not_lineage_exact_of_mending : ⟨1⟩ ∈ Sample.process.made Sample.mending ∧
    ∃ s p image c,
      (Sample.process.run Sample.mending).Concludes (.resume 3 Sample.world) ⟨1⟩ s p image c ∧
      ¬((Sample.process.run Sample.mending).apply (.resume 3 Sample.world)).rt.artifacts.Traced
        image.id c.lineage := by
  have hm : Sample.process.made Sample.mending=[⟨1⟩] := by decide +kernel
  constructor
  · rw [hm]
    exact List.mem_singleton.2 rfl
  · exact @not_traced_of_corrupt (Sample.process.run Sample.mending) ⟨1⟩ ⟨1⟩ 3 Sample.world
      (by decide +kernel)

end System

end CompilerFabric
