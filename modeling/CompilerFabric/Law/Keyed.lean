import CompilerFabric.Core.Canonical
import CompilerFabric.Law.Isolation
import CompilerFabric.Runtime.Restart

namespace CompilerFabric

open Base Base.Action

/-! Every session files its phases under their own identities. -/

namespace Estate

variable {e e' : Estate} {who : CompilerSessionId} {h h' : Holding} {k : UInt64}
  {q q' : PhaseHolding}

def Keyed (e : Estate) : Prop :=
  ∀ i h k q,e.sessions i=some h → h.phases k=some q → q.id.value=k

theorem Keyed.write (hf : e.Keyed) (hs : e.sessions who.value=some h) (hq : h.phases k=some q)
    (hw : e'.sessions=Function.update e.sessions who.value (some h'))
    (hp : h'.phases=Function.update h.phases k (some q')) (hid : q'.id=q.id) : e'.Keyed := by
  intro i g j x hg hx
  rw [hw] at hg
  by_cases hi : i=who.value
  · subst hi
    rw [Function.update_self] at hg
    cases hg
    rw [hp] at hx
    by_cases hj : j=k
    · subst hj
      rw [Function.update_self] at hx
      cases hx
      rw [hid]
      exact hf _ h j q hs hq
    · rw [Function.update_of_ne hj] at hx
      exact hf _ h j x hs hx
  · rw [Function.update_of_ne hi] at hg
    exact hf i g j x hg hx

theorem Moves.keyed (hm : Moves who e e') (hf : e.Keyed) : e'.Keyed := by
  induction hm with
  | refl => exact hf
  | reserve hs hq => exact hf.write hs hq rfl rfl rfl
  | register hs hq => exact hf.write hs hq rfl rfl rfl
  | trans _ _ ih ih' => exact ih' (ih hf)

end Estate

theorem KeyedById.of_holding {s t : CompilerSession} (hs : KeyedById s.phases)
    (h : t.holding=s.holding) : KeyedById t.phases := by
  intro k p hp
  have hk : t.holding.phases k=some p.holding := congrArg (Option.map PhaseRecord.holding) hp
  rw [h] at hk
  have ⟨q,hq,he⟩ := Option.map_eq_some_iff.1 hk
  have hid : q.id=p.id := congrArg PhaseHolding.id he
  rw [← hid]
  exact hs k q hq

instance : bundleFormat.Spelled := by
  delta bundleFormat entity sections section_
  infer_instance

/-- A session that is read from a journal files its phases. -/
theorem keyed_of_decoded {bytes : Bytes} {bundle : SessionBundle}
    (h : decodeSessionBundle bytes=.ok bundle) : KeyedById bundle.session.phases := by
  have hg : bundleFormat.good bundle := Format.Spelled.good_of_ok _ _ _ (Format.readAll_ok.1 h)
  exact ((sessionFormat_good _).1 hg.1.1).2.1

namespace Runtime

variable {w : World} {rt : Runtime}

def Keys (rt t : Runtime) : Prop := rt.estate.Keyed → t.estate.Keyed

instance : IsPreorder Runtime Keys where
  refl _ h := h
  trans _ _ _ h h' hf := h' (h hf)

theorem keyed_iff : rt.estate.Keyed ↔
    ∀ (i : UInt64) s,rt.sessions[i]?=some s → KeyedById s.phases := by
  constructor
  · intro h i s hs k p hp
    exact h i s.holding k p.holding (congrArg (Option.map CompilerSession.holding) hs)
      (congrArg (Option.map PhaseRecord.holding) hp)
  · intro h i g k q hg hq
    have ⟨s,hs,he⟩ := Option.map_eq_some_iff.1 hg
    subst he
    have ⟨p,hp,he⟩ := Option.map_eq_some_iff.1 hq
    subst he
    exact h i s hs k p hp

theorem keys_of_draws {α : Type} {x : Op α} (h : Within Draws x) : Within Keys x :=
  h.mono fun rt t h hf => by
    rw [h.estate]
    exact hf

theorem keys_of_estate {α : Type} {x : Op α} (h : Within SameEstate x) : Within Keys x :=
  keys_of_draws (h.mono fun _ _ h => SameEstate.draws h)

theorem insert_keys {session : CompilerSession} (h : KeyedById session.phases) (k : UInt64) :
    Keys rt { rt with sessions := rt.sessions.insertIfNew k session } := by
  intro hf
  rw [keyed_iff] at hf ⊢
  intro i s hs
  rw [Std.ExtTreeMap.getElem?_insertIfNew] at hs
  split at hs
  · cases hs
    exact h
  · exact hf i s hs

theorem createSession_keys (request : CompileRequest) :
    Within Keys (createSession w request) := by
  refine (keys_of_draws (sessionParts_draws w request)).bind fun parts => ?_
  refine Within.get.bind fun rt => (keys_of_estate (persist_estate w _)).bind fun _ => ?_
  refine Within.bind (fun rt => insert_keys (keyedById_emplacePhases _) _) fun _ => ?_
  exact (keys_of_estate recordEvidence_estate).bind fun _ => .pure _

theorem recovered_holding (session : CompilerSession) (epoch now : UInt64) :
    (recovered session epoch now).holding=session.holding := by
  unfold recovered
  dsimp only
  split <;> rfl

theorem adoptSession_keys {session : CompilerSession} (hk : KeyedById session.phases) :
    Within Keys (adoptSession w session) := by
  refine Within.get.bind fun rt => ?_
  refine (Within.ofExcept _).bind fun _ => (Within.ofExcept _).bind fun _ => ?_
  refine Within.bind (fun _ hf => hf) fun _ => ?_
  intro t
  refine Within.bind_at (keys_of_estate (fencePhases_estate w _ _ _) t) fun fenced u hu => ?_
  have hheld := (recovered_holding fenced rt.epoch w.now).trans (fencePhases_holding w _ _ hu)
  refine (keys_of_estate (persist_estate w _)).bind (fun _ => ?_) u
  exact Within.bind (fun rt => insert_keys (hk.of_holding hheld) _) fun _ => .pure _

/-- The sessions a process starts with are the ones it has read. -/
theorem create_keyed (options : RuntimeOptions) (adapters : List Adapter) (file : Bytes) :
    (create w options adapters file).2.estate.Keyed := by
  rw [keyed_iff]
  intro i s hs k p hp
  have ⟨b,hb,he⟩ := (create_spec w options adapters file).1 i s hs
  have hkeyed : KeyedById b.session.phases := by
    unfold replayed at hb
    split at hb
    · exact replay_decoded (P := fun _ b => KeyedById b.session.phases)
        (fun _ _ h => keyed_of_decoded h) hb
    · simp at hb
  obtain ⟨q,hq,hquiet⟩ := @CompilerSession.Evolves.before _ _ _ _ ⟨k⟩ _ he hp
  have hid : p.id=q.id := congrArg (·.1) hquiet.binding
  rw [hid]
  exact hkeyed k q hq

end Runtime

/-- A session that is handed over files its phases as well. -/
def Event.keyed : Event → Prop
  | .call (.adoptSession session) _ => KeyedById session.phases
  | _ => True

namespace System

variable {sys : System} {e : Event} {events : List Event}

theorem apply_keyed (h : sys.Staffed) (he : e.inProcess) (hk : e.keyed)
    (hf : sys.rt.estate.Keyed) : (sys.apply e).rt.estate.Keyed := by
  rcases apply_estate h he with
    ⟨_,who,hs⟩ | ⟨w,⟨request,result,_,_,hx⟩ | ⟨session,result,rfl,_,hx⟩⟩
  · exact hs.keyed hf
  · have hkeys := Runtime.createSession_keys (w := w) request (sys.rt.facing w) hf
    rwa [hx] at hkeys
  · have hkeys := Runtime.adoptSession_keys (w := w) hk (sys.rt.facing w) hf
    rwa [hx] at hkeys

end System

end CompilerFabric
