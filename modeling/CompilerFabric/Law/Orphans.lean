import CompilerFabric.Core.Supervisor

namespace CompilerFabric

namespace ProcessSupervisor

namespace Call

/-- The children that the call is still to register, or to terminate for a `close`. -/
def owes : Call → List Nat
  | .launched handle _ => [handle]
  | .closing handles => handles
  | .awaiting _ handles => handles
  | _ => []

/-- A `spawn` in progress. -/
def spawning : Call → Bool
  | .admitted _ => true
  | .launched _ _ => true
  | _ => false

/-- A `close` in progress. -/
def shutting : Call → Bool
  | .closing _ => true
  | .awaiting _ _ => true
  | _ => false

end Call

variable {s : ProcessSupervisor} {n k handle : Nat} {f : Child → Child} {c : Child}

theorem getElem?_modifyChild : (s.modifyChild n f).children[k]?=
    if n=k then s.children[k]?.map f else s.children[k]? := by
  simp only [modifyChild,List.getElem?_modify]
  split <;> simp

/-- An identity names one child, and the live table files every child under its own. -/
structure Numbered (s : ProcessSupervisor) : Prop where
  distinct : ∀ (i j : Nat) (a b : Child),s.children[i]?=some a → s.children[j]?=some b → a.id=b.id → i=j
  filed : ∀ (k : UInt64) (handle : Nat),s.live[k]?=some handle →
    ∃ c,s.children[handle]?=some c ∧ c.id.value=k

theorem Numbered.children (h : s.Numbered) {t : ProcessSupervisor} (hl : t.live=s.live)
    (hc : ∀ k : Nat,t.children[k]?.map (·.id)=s.children[k]?.map (·.id)) : t.Numbered := by
  have back {k : Nat} {c : Child} (hk : t.children[k]?=some c) :
      ∃ c',s.children[k]?=some c' ∧ c'.id=c.id := by
    have he := hc k
    rw [hk] at he
    exact Option.map_eq_some_iff.1 he.symm
  constructor
  · intro i j a b ha hb he
    have ⟨a',ha',hia⟩ := back ha
    have ⟨b',hb',hib⟩ := back hb
    exact h.distinct i j a' b' ha' hb' (hia.trans (he.trans hib.symm))
  · intro k handle hk
    rw [hl] at hk
    have ⟨c,hs,hid⟩ := h.filed k handle hk
    have he := hc handle
    rw [hs] at he
    have ⟨c',ht,hid'⟩ := Option.map_eq_some_iff.1 he
    exact ⟨c',ht,by rw [hid',hid]⟩

theorem Numbered.modifyChild (h : s.Numbered) (hf : ∀ c,(f c).id=c.id) :
    (s.modifyChild n f).Numbered := by
  refine h.children (t := s.modifyChild n f) rfl fun k => ?_
  rw [getElem?_modifyChild]
  split
  · simp [Function.comp_def,hf]
  · rfl

/-- Fewer children are filed. -/
theorem Numbered.live (h : s.Numbered) {live : Table Nat}
    (hl : ∀ (k : UInt64) handle,live[k]?=some handle → s.live[k]?=some handle) :
    { s with live := live }.Numbered :=
  ⟨h.distinct,fun k handle hk => h.filed k handle (hl k handle hk)⟩

theorem live_erase (live : Table Nat) (key : UInt64) (k : UInt64) (handle : Nat)
    (h : (live.erase key)[k]?=some handle) : live[k]?=some handle := by
  rw [Std.ExtTreeMap.getElem?_erase] at h
  split at h
  · cases h
  · exact h

theorem Numbered.erase (h : s.Numbered) : (s.erase handle).Numbered := by
  apply h.live
  cases s.children[handle]? with
  | none => exact fun _ _ hk => hk
  | some c => exact live_erase _ _

/-- Another child stays filed. -/
theorem Numbered.erase_live (h : s.Numbered) (hc : s.children[k]?=some c) (hne : handle ≠ k)
    (hl : s.live[c.id.value]?=some k) : (s.erase handle).live[c.id.value]?=some k := by
  unfold ProcessSupervisor.erase
  cases ha : s.children[handle]? with
  | none => exact hl
  | some a =>
    dsimp only [Option.elim_some]
    rw [Std.ExtTreeMap.getElem?_erase,if_neg,hl]
    intro hk
    exact hne (h.distinct handle k a c ha hc (StrongId.ext (Std.LawfulEqCmp.eq_of_compare hk)))

theorem Numbered.reap (h : s.Numbered) (id : ProcessId) (generation : ProcessGeneration) :
    (s.reap id generation).Numbered := by
  unfold ProcessSupervisor.reap
  split
  · exact h.live (live_erase _ _)
  · exact h

theorem Numbered.register (h : s.Numbered) : (s.register handle).Numbered := by
  refine ⟨h.distinct,?_⟩
  intro k m hk
  unfold ProcessSupervisor.register at hk ⊢
  cases hc : s.children[handle]? with
  | none =>
    rw [hc] at hk
    exact h.filed k m hk
  | some c =>
    rw [hc] at hk
    dsimp only [Option.elim_some] at hk
    rw [Std.ExtTreeMap.getElem?_insertIfNew] at hk
    split at hk
    · next hn =>
      cases hk
      exact ⟨c,hc,Std.LawfulEqCmp.eq_of_compare hn.1⟩
    · exact h.filed k m hk

/-- Once registered, a child is filed under its identity. -/
theorem Numbered.registered (h : s.Numbered) (hc : s.children[handle]?=some c) :
    (s.register handle).live[c.id.value]?=some handle := by
  unfold ProcessSupervisor.register
  rw [hc]
  dsimp only [Option.elim_some]
  rw [Std.ExtTreeMap.getElem?_insertIfNew]
  split
  · rfl
  · next hn =>
    have hm : c.id.value ∈ s.live := by
      by_contra hm
      exact hn ⟨Std.ReflCmp.compare_self,hm⟩
    have ⟨m,hk⟩ := Option.isSome_iff_exists.1 (Std.ExtTreeMap.mem_iff_isSome_getElem?.1 hm)
    have ⟨c',hc',hid⟩ := h.filed _ m hk
    rw [hk,h.distinct m handle c' c hc' hc (StrongId.ext hid)]

theorem register_live {live : UInt64} (h : s.live[live]?=some k) :
    (s.register handle).live[live]?=some k := by
  unfold register
  cases s.children[handle]? with
  | none => exact h
  | some c =>
    dsimp only [Option.elim_some]
    rw [Std.ExtTreeMap.getElem?_insertIfNew,if_neg,h]
    rintro ⟨hk,hn⟩
    have hk := Std.LawfulEqCmp.eq_of_compare hk
    rw [hk] at hn
    exact hn (Std.ExtTreeMap.mem_iff_isSome_getElem?.2 (by rw [h]; rfl))

theorem mem_handles {key : UInt64} (h : s.live[key]?=some k) : k ∈ s.handles :=
  List.mem_map.2 ⟨(key,k),Std.ExtTreeMap.mem_toList_iff_getElem?_eq_some.2 h,rfl⟩

/-- A child that is launched under a new identity. -/
theorem Numbered.launch (h : s.Numbered) {c : Child} (allocator : IdAllocator .process)
    (hn : ∀ c' ∈ s.children,c'.id ≠ c.id) :
    { s with allocator,children := s.children++[c] }.Numbered := by
  have old {i : Nat} {a : Child} (ha : (s.children++[c])[i]?=some a) :
      s.children[i]?=some a ∨ i=s.children.length ∧ a=c := by
    rw [List.getElem?_append] at ha
    split at ha
    · exact .inl ha
    · next hi =>
      have ⟨hz,ha⟩ := List.getElem?_eq_some_iff.1 ha
      simp only [List.length_singleton,Nat.lt_one_iff] at hz
      simp only [List.getElem_singleton] at ha
      exact .inr ⟨by omega,ha.symm⟩
  constructor
  · intro i j a b ha hb he
    rcases old ha with ha | ⟨hi,hac⟩
    · rcases old hb with hb | ⟨hj,hbc⟩
      · exact h.distinct i j a b ha hb he
      · exact absurd (hbc ▸ he) (hn a (List.mem_of_getElem? ha))
    · rcases old hb with hb | ⟨hj,hbc⟩
      · exact absurd (hac ▸ he.symm) (hn b (List.mem_of_getElem? hb))
      · rw [hi,hj]
  · intro k handle hk
    have ⟨c',hc',hid⟩ := h.filed k handle hk
    refine ⟨c',?_,hid⟩
    rw [List.getElem?_append_left (List.getElem?_eq_some_iff.1 hc').1,hc']

/-- A child that is written and still runs unterminated did so before. -/
theorem orphan_of_modify {c : Child} (hf : ∀ c,(f c).id=c.id ∧ ((f c).orphan → c.orphan))
    (h : (s.modifyChild n f).children[k]?=some c) (ho : c.orphan) :
    ∃ c',s.children[k]?=some c' ∧ c'.orphan ∧ c'.id=c.id ∧ (n=k → c=f c') := by
  rw [getElem?_modifyChild] at h
  split at h
  · have ⟨c',hc',he⟩ := Option.map_eq_some_iff.1 h
    subst he
    exact ⟨c',hc',(hf c').2 ho,(hf c').1.symm,fun _ => rfl⟩
  · next hn => exact ⟨c,h,ho,rfl,fun he => absurd he hn⟩

end ProcessSupervisor

namespace Supervision

open ProcessSupervisor (Call Numbered)

variable {v : Supervision} {i : Nat} {call call' : Call} {calls : List Call}

/-- The step keeps to what the supervisor relies on: a child is launched under an identity that
names no other one and registered while the supervisor is open, only a child that is not an orphan
is reaped, and a second `close` begins when the first is over. -/
def orderly (v : Supervision) : SupervisorEvent → Bool
  | .resume index _ => match v.calls[index]? with
      | some (.admitted _) => v.children.all (·.id ≠ v.allocator.next.1)
      | some (.launched _ _) => !v.closed
      | _ => true
  | .reap id generation => (v.supervised id generation).all fun handle =>
      v.children[handle]?.all (!·.orphan)
  | .close => v.calls.all (!·.shutting)
  | _ => true

/-- Every step of the run is orderly in the state it finds. -/
def Orderly (v : Supervision) : List SupervisorEvent → Bool
  | [] => true
  | e::events => v.orderly e && (v.apply e).Orderly events

/-- A `close` has returned and no `spawn` is in progress. -/
def shut (v : Supervision) : Prop := .closed ∈ v.calls ∧ ∀ call ∈ v.calls,call.spawning=false

def NoOrphan (v : Supervision) : Prop := v.shut → ∀ c ∈ v.children,c.orphan=false

/-- An open supervisor has no `close`; a closed one has one in progress at most, and none besides
one that has returned. -/
structure Closing (closed : Bool) (calls : List Call) : Prop where
  opened : closed=false → ∀ call ∈ calls,call.shutting=false ∧ call ≠ .closed
  alone : ∀ (i j : Nat) (a b : Call),calls[i]?=some a → calls[j]?=some b → a.shutting →
    b.shutting ∨ b=.closed → i=j

/-- A call that is no `close` joins. -/
theorem Closing.enter {closed : Bool} (h : Closing closed calls) (hc : call.shutting=false)
    (hne : call ≠ .closed) : Closing closed (calls++[call]) := by
  have old {i : Nat} {a : Call} (ha : (calls++[call])[i]?=some a) (hs : a.shutting ∨ a=.closed) :
      calls[i]?=some a := by
    rw [List.getElem?_append] at ha
    split at ha
    · exact ha
    · have hm := List.mem_singleton.1 (List.mem_of_getElem? ha)
      subst hm
      rcases hs with hs | hs
      · rw [hc] at hs
        cases hs
      · exact absurd hs hne
  constructor
  · intro ho a ha
    rcases List.mem_append.1 ha with ha | ha
    · exact h.opened ho a ha
    · rw [List.mem_singleton.1 ha]
      exact ⟨hc,hne⟩
  · intro i j a b ha hb hs hb'
    exact h.alone i j a b (old ha (.inl hs)) (old hb hb') hs hb'

/-- A call goes on: as a `close` only if it was one. -/
theorem Closing.goes {closed : Bool} (h : Closing closed calls) (hc : calls[i]?=some call)
    (hs : call'.shutting → call.shutting)
    (hd : call'=.closed → call.shutting ∨ call=.closed) : Closing closed (calls.set i call') := by
  have old {j : Nat} {a : Call} (ha : (calls.set i call')[j]?=some a) :
      calls[j]?=some a ∨ i=j ∧ a=call' := by
    rw [List.getElem?_set] at ha
    split at ha
    · split at ha
      · exact .inr ⟨by assumption,(Option.some.inj ha).symm⟩
      · cases ha
    · exact .inl ha
  have before {j : Nat} {b : Call} (hb : (calls.set i call')[j]?=some b)
      (hb' : b.shutting ∨ b=.closed) : ∃ b',calls[j]?=some b' ∧ (b'.shutting ∨ b'=.closed) := by
    rcases old hb with hb | ⟨hj,he⟩
    · exact ⟨b,hb,hb'⟩
    · subst hj he
      exact ⟨call,hc,hb'.elim (fun h => .inl (hs h)) hd⟩
  constructor
  · intro ho a ha
    have ⟨j,ha⟩ := List.getElem?_of_mem ha
    rcases old ha with ha | ⟨_,he⟩
    · exact h.opened ho a (List.mem_of_getElem? ha)
    · subst he
      have ⟨hcs,hcd⟩ := h.opened ho call (List.mem_of_getElem? hc)
      have hns : a.shutting=false := by
        by_contra hn
        rw [hs (by simpa using hn)] at hcs
        cases hcs
      refine ⟨hns,?_⟩
      intro he
      rcases hd he with hn | hn
      · rw [hn] at hcs
        cases hcs
      · exact hcd hn
  · intro j k a b ha hb hsa hsb
    have ⟨b',hb',hsb'⟩ := before hb hsb
    rcases old ha with ha | ⟨hj,he⟩
    · exact h.alone j k a b' ha hb' hsa hsb'
    · subst hj he
      exact h.alone i k call b' hc hb' (hs hsa) hsb'

theorem mem_goes (hc : calls[i]?=some call) : call' ∈ calls.set i call' :=
  List.mem_of_getElem? (List.getElem?_set_self (List.getElem?_eq_some_iff.1 hc).1)

/-- Someone still answers for the child: the open supervisor, which has it filed, or a call. -/
def Held (v : Supervision) (k : Nat) (c : Child) : Prop :=
  v.closed=false ∧ v.live[c.id.value]?=some k ∨ ∃ call ∈ v.calls,k ∈ call.owes

structure Accounted (v : Supervision) : Prop where
  numbered : v.Numbered
  closing : Closing v.closed v.calls
  held : ∀ (k : Nat) (c : Child),v.children[k]?=some c → c.orphan → v.Held k c

theorem Accounted.noOrphan (h : v.Accounted) : v.NoOrphan := by
  rintro ⟨hclosed,hspawn⟩ c hc
  by_contra ho
  have ⟨k,hk⟩ := List.getElem?_of_mem hc
  rcases h.held k c hk (by simpa using ho) with ⟨hopen,_⟩ | ⟨call,hm,hk⟩
  · exact (h.closing.opened hopen _ hclosed).2 rfl
  · cases call with
    | launched => cases hspawn _ hm
    | closing | awaiting =>
      have ⟨i,hi⟩ := List.getElem?_of_mem hm
      have ⟨j,hj⟩ := List.getElem?_of_mem hclosed
      have he := h.closing.alone i j _ _ hi hj rfl (.inr rfl)
      rw [he,hj] at hi
      cases hi
    | admitted | waiting | terminating | closed | returned => cases hk

/-- A call joins a supervisor that files no orphan less. -/
theorem Accounted.enter (h : v.Accounted) {t : ProcessSupervisor} (hn : t.Numbered)
    (hclosed : t.closed=v.closed) (hchildren : t.children=v.children)
    (hlive : ∀ (k : Nat) (c : Child),v.children[k]?=some c → c.orphan →
      v.live[c.id.value]?=some k → t.live[c.id.value]?=some k)
    (hc : call.shutting=false) (hne : call ≠ .closed) : (v.enter (call,t)).Accounted := by
  refine ⟨hn,?_,?_⟩
  · show Closing t.closed _
    rw [hclosed]
    exact h.closing.enter hc hne
  · intro k c hk ho
    have hk : t.children[k]?=some c := hk
    rw [hchildren] at hk
    rcases h.held k c hk ho with ⟨hopen,hl⟩ | ⟨a,ha,hm⟩
    · exact .inl ⟨hclosed.trans hopen,hlive k c hk ho hl⟩
    · exact .inr ⟨a,List.mem_append_left _ ha,hm⟩

/-- A call goes on without launching a child. -/
theorem Accounted.goes (h : v.Accounted) (hc : v.calls[i]?=some call) {t : ProcessSupervisor}
    (hn : t.Numbered) (hclosed : t.closed=v.closed) (hs : call'.shutting → call.shutting)
    (hd : call'=.closed → call.shutting ∨ call=.closed)
    (hheld : ∀ (k : Nat) (c : Child),t.children[k]?=some c → c.orphan →
      ∃ c',v.children[k]?=some c' ∧ c'.orphan ∧ c'.id=c.id ∧
        (v.live[c.id.value]?=some k → t.live[c.id.value]?=some k) ∧
        (k ∈ call.owes → k ∈ call'.owes ∨ t.closed=false ∧ t.live[c.id.value]?=some k)) :
    ({ t with calls := v.calls.set i call' } : Supervision).Accounted := by
  refine ⟨hn,?_,?_⟩
  · show Closing t.closed _
    rw [hclosed]
    exact h.closing.goes hc hs hd
  · intro k c hk ho
    have ⟨c',hk',ho',hid,hlive,howes⟩ := hheld k c hk ho
    have owes (hm : k ∈ call.owes) :
        ({ t with calls := v.calls.set i call' } : Supervision).Held k c := by
      rcases howes hm with hm | hl
      · exact .inr ⟨call',mem_goes hc,hm⟩
      · exact .inl hl
    rcases h.held k c' hk' ho' with ⟨hopen,hl⟩ | ⟨a,ha,hm⟩
    · exact .inl ⟨hclosed.trans hopen,hlive (hid ▸ hl)⟩
    · have ⟨j,hj⟩ := List.getElem?_of_mem ha
      by_cases hij : i=j
      · subst hij
        rw [hc] at hj
        cases hj
        exact owes hm
      · refine .inr ⟨a,?_,hm⟩
        apply List.mem_of_getElem? (i := j)
        rw [List.getElem?_set_ne hij,hj]

theorem Accounted.launch (h : v.Accounted) {waits : Bool} (hc : v.calls[i]?=some (.admitted waits))
    (hn : ∀ c ∈ v.children,c.id ≠ v.allocator.next.1) (outcome : Launch) :
    ({ (v.launch waits outcome).2 with
      calls := v.calls.set i (v.launch waits outcome).1 } : Supervision).Accounted := by
  have same (k : Nat) (c : Child) (hk : v.children[k]?=some c) (ho : c.orphan) :
      ∃ c',v.children[k]?=some c' ∧ c'.orphan ∧ c'.id=c.id ∧
        (v.live[c.id.value]?=some k → v.live[c.id.value]?=some k) ∧
        (k ∈ (Call.admitted waits).owes → k ∈ Call.returned.owes ∨
          v.closed=false ∧ v.live[c.id.value]?=some k) :=
    ⟨c,hk,ho,rfl,id,fun hm => nomatch hm⟩
  cases outcome with
  | invalid => exact h.goes hc h.numbered rfl nofun nofun same
  | failed =>
    exact h.goes hc (t := { v.toProcessSupervisor with allocator := v.allocator.next.2 })
      ⟨h.numbered.distinct,h.numbered.filed⟩ rfl nofun nofun same
  | started =>
    refine ⟨h.numbered.launch _ hn,h.closing.goes hc nofun nofun,?_⟩
    intro k c hk ho
    have hk : (v.children++[_])[k]?=some c := hk
    rw [List.getElem?_append] at hk
    split at hk
    · rcases h.held k c hk ho with hl | ⟨a,ha,hm⟩
      · exact .inl hl
      · have ⟨j,hj⟩ := List.getElem?_of_mem ha
        have hij : i ≠ j := by
          rintro rfl
          rw [hc] at hj
          cases hj
          cases hm
        refine .inr ⟨a,?_,hm⟩
        apply List.mem_of_getElem? (i := j)
        exact (List.getElem?_set_ne hij).trans hj
    · next hlt =>
      have hz := (List.getElem?_eq_some_iff.1 hk).1
      simp only [List.length_singleton,Nat.lt_one_iff] at hz
      refine .inr ⟨_,mem_goes hc,?_⟩
      exact List.mem_singleton.2 (by omega)

section Children

variable {n : Nat} {f : Child → Child}

/-- A call writes one child and leaves the live table alone. -/
theorem Accounted.writes (h : v.Accounted) (hc : v.calls[i]?=some call)
    (hf : ∀ c,(f c).id=c.id ∧ ((f c).orphan → c.orphan)) (hs : call'.shutting → call.shutting)
    (hd : call'=.closed → call.shutting ∨ call=.closed)
    (howes : ∀ k,k ∈ call.owes → k ∈ call'.owes ∨ n=k ∧ ∀ c,(f c).orphan=false) :
    ({ v.modifyChild n f with calls := v.calls.set i call' } : Supervision).Accounted := by
  refine h.goes hc (h.numbered.modifyChild fun c => (hf c).1) rfl hs hd ?_
  intro k c hk ho
  have ⟨c',hk',ho',hid,hn⟩ := ProcessSupervisor.orphan_of_modify hf hk ho
  refine ⟨c',hk',ho',hid,id,?_⟩
  intro hm
  rcases howes k hm with hm | ⟨he,hz⟩
  · exact .inl hm
  · rw [hn he,hz] at ho
    cases ho

theorem terminated_fades (c : Child) : c.terminated.id=c.id ∧ (c.terminated.orphan → c.orphan) := by
  refine ⟨?_,fun ho => ?_⟩
  · unfold Child.terminated
    split <;> rfl
  · rw [c.terminated_orphan] at ho
    cases ho

theorem collected_fades (c : Child) : ({ c with state := .collected } : Child).id=c.id ∧
    (({ c with state := .collected } : Child).orphan → c.orphan) := ⟨rfl,nofun⟩

theorem exited_fades (c : Child) :
    (if c.state=.running then { c with state := .exited } else c).id=c.id ∧
      ((if c.state=.running then { c with state := .exited } else c).orphan → c.orphan) := by
  split
  · exact ⟨rfl,nofun⟩
  · exact ⟨rfl,id⟩

/-- A child ends, or is terminated by whoever holds its handle. -/
theorem Accounted.outside (h : v.Accounted) (hf : ∀ c,(f c).id=c.id ∧ ((f c).orphan → c.orphan)) :
    ({ v.modifyChild n f with calls := v.calls } : Supervision).Accounted := by
  refine ⟨h.numbered.modifyChild fun c => (hf c).1,h.closing,?_⟩
  intro k c hk ho
  have ⟨c',hk',ho',hid,_⟩ := ProcessSupervisor.orphan_of_modify hf hk ho
  have hheld := h.held k c' hk' ho'
  rw [Held,hid] at hheld
  exact hheld

end Children

theorem Accounted.resume (h : v.Accounted) {outcome : Launch} (hc : v.calls[i]?=some call)
    (ho : v.orderly (.resume i outcome)) :
    ({ (v.resume outcome call).2 with
      calls := v.calls.set i (v.resume outcome call).1 } : Supervision).Accounted := by
  have still {call' : Call} (hd : call'=.closed → call.shutting ∨ call=.closed)
      (hs : call'.shutting → call.shutting) (howes : ∀ k ∈ call.owes,k ∈ call'.owes) :
      ({ v.toProcessSupervisor with calls := v.calls.set i call' } : Supervision).Accounted :=
    h.goes hc h.numbered rfl hs hd fun k c hk ho => ⟨c,hk,ho,rfl,id,fun hm => .inl (howes k hm)⟩
  simp only [orderly,hc] at ho
  cases call with
  | admitted waits => exact h.launch hc (by simpa using ho) outcome
  | launched handle waits =>
    refine h.goes hc h.numbered.register rfl ?_ ?_ ?_
    · cases waits <;> exact nofun
    · cases waits <;> exact nofun
    · intro k c hk horphan
      refine ⟨c,hk,horphan,rfl,ProcessSupervisor.register_live,?_⟩
      intro hm
      have hm := List.mem_singleton.1 hm
      subst hm
      have hopen : v.closed=false := by simpa using ho
      exact .inr ⟨hopen,h.numbered.registered hk⟩
  | waiting handle =>
    by_cases hr : v.running handle
    · rw [show v.resume outcome (.waiting handle)=_ from if_pos hr]
      exact still nofun nofun fun _ hm => hm
    · rw [show v.resume outcome (.waiting handle)=_ from if_neg hr]
      have hn := (h.numbered.modifyChild (n := handle) fun c => (collected_fades c).1)
      refine h.goes hc (Numbered.erase hn) rfl nofun nofun ?_
      intro k c hk horphan
      have ⟨c',hk',ho',hid,hne⟩ := ProcessSupervisor.orphan_of_modify collected_fades hk horphan
      refine ⟨c',hk',ho',hid,Numbered.erase_live hn hk ?_,nofun⟩
      intro he
      rw [hne he] at horphan
      cases horphan
  | terminating handles =>
    cases handles with
    | nil => exact still nofun nofun fun _ hm => hm
    | cons handle handles => exact h.writes hc terminated_fades nofun nofun fun _ hm => nomatch hm
  | closing handles =>
    cases handles with
    | nil => exact still (fun _ => .inl rfl) nofun fun _ hm => hm
    | cons handle handles =>
      refine h.writes hc terminated_fades (fun _ => rfl) nofun ?_
      intro k hm
      rcases List.mem_cons.1 hm with he | hm
      · exact .inr ⟨he.symm,Child.terminated_orphan⟩
      · exact .inl hm
  | awaiting handle handles =>
    by_cases hr : v.running handle
    · rw [show v.resume outcome (.awaiting handle handles)=_ from if_pos hr]
      exact still nofun (fun _ => rfl) fun _ hm => hm
    · rw [show v.resume outcome (.awaiting handle handles)=_ from if_neg hr]
      exact h.writes hc collected_fades (fun _ => rfl) nofun fun _ hm => .inl hm
  | closed => exact still (fun _ => .inr rfl) nofun fun _ hm => hm
  | returned => exact still nofun nofun fun _ hm => hm

/-- One step that keeps to what the supervisor relies on. -/
theorem Accounted.apply (h : v.Accounted) {e : SupervisorEvent} (ho : v.orderly e) :
    (v.apply e).Accounted := by
  cases e with
  | spawn waits =>
    have hcall : (v.spawn waits).shutting=false ∧ v.spawn waits ≠ .closed := by
      unfold ProcessSupervisor.spawn
      split <;> exact ⟨rfl,nofun⟩
    exact h.enter h.numbered rfl rfl (fun _ _ _ _ hl => hl) hcall.1 hcall.2
  | terminate id generation =>
    exact h.enter h.numbered rfl rfl (fun _ _ _ _ hl => hl) rfl nofun
  | terminateAll => exact h.enter h.numbered rfl rfl (fun _ _ _ _ hl => hl) rfl nofun
  | reap id generation =>
    have hr : (v.reap id generation).closed=v.closed ∧
        (v.reap id generation).children=v.children := by
      unfold ProcessSupervisor.reap
      split <;> exact ⟨rfl,rfl⟩
    refine h.enter (h.numbered.reap id generation) hr.1 hr.2 ?_ rfl nofun
    intro k c hk horphan hl
    unfold ProcessSupervisor.reap
    split
    · next hs =>
      show (v.live.erase id.value)[c.id.value]?=some k
      rw [Std.ExtTreeMap.getElem?_erase,if_neg,hl]
      intro hc
      have hc := Std.LawfulEqCmp.eq_of_compare hc
      have ⟨m,hm⟩ := Option.isSome_iff_exists.1 hs
      have hkm : m=k := by
        have hf := (Option.filter_eq_some_iff.1 hm).1
        rw [hc,hl] at hf
        exact (Option.some.inj hf).symm
      subst hkm
      simp only [orderly,hm,Option.all_some,hk,horphan] at ho
      cases ho
    · exact hl
  | close =>
    have hno : ∀ {i : Nat} {a : Call},v.calls[i]?=some a → a.shutting → False := by
      intro i a ha hs
      have hn := List.all_eq_true.1 ho a (List.mem_of_getElem? ha)
      rw [hs] at hn
      cases hn
    have hx : v.apply .close=v.enter v.close := rfl
    rw [hx,ProcessSupervisor.close]
    split
    · next hclosed =>
      refine ⟨h.numbered,⟨fun hopen => ?_,?_⟩,?_⟩
      · have hopen : v.closed=false := hopen
        rw [hclosed] at hopen
        cases hopen
      · intro i j a b ha _ hs _
        have ha : (v.calls++[.closed])[i]?=some a := ha
        rw [List.getElem?_append] at ha
        split at ha
        · exact absurd hs (hno ha)
        · rw [List.mem_singleton.1 (List.mem_of_getElem? ha)] at hs
          cases hs
      · intro k c hk horphan
        rcases h.held k c hk horphan with hl | ⟨a,ha,hm⟩
        · exact .inl hl
        · exact .inr ⟨a,List.mem_append_left _ ha,hm⟩
    · next hopen =>
      refine ⟨⟨h.numbered.distinct,?_⟩,⟨nofun,?_⟩,?_⟩
      · intro k handle hk
        have hk : (∅ : Table Nat)[k]?=some handle := hk
        rw [Std.ExtTreeMap.getElem?_empty] at hk
        cases hk
      · intro i j a b ha hb hs hb'
        have new {i : Nat} {a : Call} (ha : (v.calls++[.closing v.handles])[i]?=some a)
            (hs : a.shutting ∨ a=.closed) : i=v.calls.length := by
          have hi := (List.getElem?_eq_some_iff.1 ha).1
          rw [List.getElem?_append] at ha
          split at ha
          · have hm := List.mem_of_getElem? ha
            rcases hs with hs | hs
            · exact absurd hs (hno ha)
            · exact absurd hs (h.closing.opened (by simpa using hopen) a hm).2
          · simp only [List.length_append,List.length_singleton] at hi
            omega
        rw [new ha (.inl hs),new hb hb']
      · intro k c hk horphan
        refine .inr ?_
        rcases h.held k c hk horphan with ⟨_,hl⟩ | ⟨a,ha,hm⟩
        · exact ⟨_,List.mem_append_right _ List.mem_cons_self,
            ProcessSupervisor.mem_handles hl⟩
        · exact ⟨a,List.mem_append_left _ ha,hm⟩
  | resume index outcome =>
    have hx : v.apply (.resume index outcome)=v.calls[index]?.elim v _ := rfl
    rw [hx]
    cases hc : v.calls[index]? with
    | none => exact h
    | some call => exact h.resume hc ho
  | exit handle => exact h.outside exited_fades
  | kill handle => exact h.outside terminated_fades

theorem Accounted.run (h : v.Accounted) {events : List SupervisorEvent} (ho : v.Orderly events) :
    (v.run events).Accounted := by
  induction events generalizing v with
  | nil => exact h
  | cons e events ih =>
    have ⟨he,ho⟩ := Bool.and_eq_true_iff.1 ho
    exact ih (h.apply he) ho

theorem accounted_new : ({} : Supervision).Accounted where
  numbered := by
    refine ⟨nofun,?_⟩
    intro k handle hk
    have hk : (∅ : Table Nat)[k]?=some handle := hk
    rw [Std.ExtTreeMap.getElem?_empty] at hk
    cases hk
  closing := ⟨nofun,nofun⟩
  held := nofun

theorem orderly_take {events : List SupervisorEvent} (h : v.Orderly events) (n : Nat) :
    v.Orderly (events.take n) := by
  induction events generalizing v n with
  | nil => simp [Orderly]
  | cons e events ih =>
    cases n with
    | zero => rfl
    | succ n =>
      have ⟨he,h⟩ := Bool.and_eq_true_iff.1 h
      exact Bool.and_eq_true_iff.2 ⟨he,ih h n⟩

/-- In an orderly run no child outlives a `close` that has returned, whatever is interleaved. -/
theorem noOrphan_of_orderly (events : List SupervisorEvent) (h : ({} : Supervision).Orderly events)
    (n : Nat) : (({} : Supervision).run (events.take n)).NoOrphan :=
  (accounted_new.run (orderly_take h n)).noOrphan

/-- Two children: one is reaped after its end, a `close` waits for the other. -/
theorem noOrphan_of_sample : (({} : Supervision).run [.spawn false,.resume 0 .started,.resume 0 .started,
    .spawn true,.resume 1 .started,.resume 1 .started,.exit 0,.reap ⟨1⟩ .initial,.close,
    .resume 3 .started,.exit 1,.resume 3 .started,.resume 3 .started]).NoOrphan :=
  noOrphan_of_orderly [.spawn false,.resume 0 .started,.resume 0 .started,
    .spawn true,.resume 1 .started,.resume 1 .started,.exit 0,.reap ⟨1⟩ .initial,.close,
    .resume 3 .started,.exit 1,.resume 3 .started,.resume 3 .started] (by decide +kernel) 13

/-- A `close` between the launch of a child and its registration. -/
theorem orphan_of_late_registration : ¬(({} : Supervision).run [.spawn false,.resume 0 .started,.close,
    .resume 1 .started,.resume 0 .started]).NoOrphan := by
  intro h
  have hs : (({} : Supervision).run [.spawn false,.resume 0 .started,.close,.resume 1 .started,
      .resume 0 .started]).shut := by
    unfold shut
    decide +kernel
  have ho := h hs { id := ⟨1⟩ } (by decide +kernel)
  cases ho

end Supervision

end CompilerFabric
