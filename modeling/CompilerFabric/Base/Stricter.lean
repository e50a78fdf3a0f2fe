import CompilerFabric.Base.Packing

namespace CompilerFabric.Base.Format

variable {ε α β : Type}

/-! Formats with further checks, and formats over the bytes that a cast would hide. -/

/-- A format that checks more than `F`: it takes what `F` takes, where the value is fine. -/
structure Stricter (F : Format ε α) where
  strict : Format ε α
  fine : α → Prop
  read_iff : ∀ b x r,strict.read b=.ok (x,r) ↔ F.read b=.ok (x,r) ∧ fine x

namespace Stricter

variable {F : Format ε α} {G : Format ε β}

/-- Nothing to check. -/
def whole (F : Format ε α) : Stricter F := ⟨F,fun _ => True,fun _ _ _ => by simp⟩

/-- Nothing left to check, since what is read is fine in any case. -/
def sure (p : α → Prop) (h : ∀ b x r,F.read b=.ok (x,r) → p x) : Stricter F :=
  ⟨F,p,fun b x r => ⟨fun hr => ⟨hr,h b x r hr⟩,fun hr => hr.1⟩⟩

theorem check_read_iff {p : α → Bool} {e : ε} {b r : Bytes} {x : α} :
    (F.check p e).read b=.ok (x,r) ↔ F.read b=.ok (x,r) ∧ p x=true := by
  show (F.read b).bind _=_ ↔ _
  rw [bind_eq_ok]
  constructor
  · rintro ⟨⟨y,t⟩,hy,h⟩
    dsimp only at h
    split_ifs at h with hp
    simp only [Except.ok.injEq,Prod.mk.injEq] at h
    obtain ⟨rfl,rfl⟩ := h
    exact ⟨hy,hp⟩
  · rintro ⟨hx,hp⟩
    exact ⟨_,hx,by simp [hp]⟩

/-- A value checked where it is read. -/
def ranged (p : α → Bool) (e : ε) : Stricter F := ⟨F.check p e,fun x => p x=true,fun _ _ _ => check_read_iff⟩

theorem pair_read_iff {b r : Bytes} {x : α × β} : (F.pair G).read b=.ok (x,r) ↔
    ∃ r',F.read b=.ok (x.1,r') ∧ G.read r'=.ok (x.2,r) := by
  show (F.read b).bind _=_ ↔ _
  rw [bind_eq_ok]
  constructor
  · rintro ⟨⟨y,t⟩,hy,h⟩
    obtain ⟨⟨z,t'⟩,hz,h⟩ := bind_eq_ok.1 h
    simp only [Except.ok.injEq,Prod.mk.injEq] at h
    obtain ⟨rfl,rfl⟩ := h
    exact ⟨t,hy,hz⟩
  · rintro ⟨t,hy,hz⟩
    exact ⟨_,hy,by simp [Except.bind,hz]⟩

def pair (N : Stricter F) (M : Stricter G) : Stricter (F.pair G) where
  strict := N.strict.pair M.strict
  fine x := N.fine x.1 ∧ M.fine x.2
  read_iff b x r := by
    rw [pair_read_iff,pair_read_iff]
    constructor
    · rintro ⟨t,hx,hy⟩
      obtain ⟨hx,hfx⟩ := (N.read_iff _ _ _).1 hx
      obtain ⟨hy,hfy⟩ := (M.read_iff _ _ _).1 hy
      exact ⟨⟨t,hx,hy⟩,hfx,hfy⟩
    · rintro ⟨⟨t,hx,hy⟩,hfx,hfy⟩
      exact ⟨t,(N.read_iff _ _ _).2 ⟨hx,hfx⟩,(M.read_iff _ _ _).2 ⟨hy,hfy⟩⟩

/-- Only the first component is checked, only what follows it. -/
def first (N : Stricter F) : Stricter (F.pair G) where
  strict := N.strict.pair G
  fine x := N.fine x.1
  read_iff b x r := ((N.pair (whole G)).read_iff b x r).trans (by simp [pair,whole])

def after (M : Stricter G) : Stricter (F.pair G) where
  strict := F.pair M.strict
  fine x := M.fine x.2
  read_iff b x r := (((whole F).pair M).read_iff b x r).trans (by simp [pair,whole])

def view {enc : α → β} {dec : β → α} {hdec : ∀ x,dec (enc x)=x} {henc : ∀ y,enc (dec y)=y}
    (M : Stricter G) : Stricter (Format.view enc dec hdec henc G) where
  strict := Format.view enc dec hdec henc M.strict
  fine x := M.fine (enc x)
  read_iff b x r := by
    show (M.strict.read b).bind _=_ ↔ (G.read b).bind _=_ ∧ _
    rw [bind_eq_ok,bind_eq_ok]
    constructor
    · rintro ⟨⟨y,t⟩,hy,h⟩
      obtain ⟨hy,hf⟩ := (M.read_iff _ _ _).1 hy
      simp only [Except.ok.injEq,Prod.mk.injEq] at h
      obtain ⟨rfl,rfl⟩ := h
      exact ⟨⟨_,hy,rfl⟩,by rwa [henc]⟩
    · rintro ⟨⟨⟨y,t⟩,hy,h⟩,hf⟩
      simp only [Except.ok.injEq,Prod.mk.injEq] at h
      obtain ⟨rfl,rfl⟩ := h
      rw [henc] at hf
      exact ⟨_,(M.read_iff _ _ _).2 ⟨hy,hf⟩,rfl⟩

theorem readMany_iff (N : Stricter F) (n : Nat) (b : Bytes) (xs : List α) (r : Bytes) :
    N.strict.readMany n b=.ok (xs,r) ↔ F.readMany n b=.ok (xs,r) ∧ ∀ x ∈ xs,N.fine x := by
  induction n generalizing b xs r with
  | zero =>
    simp only [readMany,Except.ok.injEq,Prod.mk.injEq]
    constructor
    · rintro ⟨rfl,rfl⟩
      simp
    · exact fun h => h.1
  | succ n ih =>
    simp only [readMany,bind_eq_ok]
    constructor
    · rintro ⟨⟨x,t⟩,hx,⟨ys,t'⟩,hys,h⟩
      obtain ⟨hx,hf⟩ := (N.read_iff _ _ _).1 hx
      obtain ⟨hys,hfs⟩ := (ih _ _ _).1 hys
      simp only [Except.ok.injEq,Prod.mk.injEq] at h
      obtain ⟨rfl,rfl⟩ := h
      refine ⟨⟨_,hx,_,hys,rfl⟩,?_⟩
      simpa using And.intro hf hfs
    · rintro ⟨⟨⟨x,t⟩,hx,⟨ys,t'⟩,hys,h⟩,hall⟩
      simp only [Except.ok.injEq,Prod.mk.injEq] at h
      obtain ⟨rfl,rfl⟩ := h
      exact ⟨_,(N.read_iff _ _ _).2 ⟨hx,hall x List.mem_cons_self⟩,_,
        (ih _ _ _).2 ⟨hys,fun y hy => hall y (List.mem_cons_of_mem _ hy)⟩,rfl⟩

def list {bound : Nat} {hbound : bound<2^64} {e : ε} (N : Stricter F) :
    Stricter (Format.list bound hbound e F) where
  strict := Format.list bound hbound e N.strict
  fine xs := ∀ x ∈ xs,N.fine x
  read_iff b xs r := by
    show ((u64 e).read b).bind _=_ ↔ ((u64 e).read b).bind _=_ ∧ _
    rw [bind_eq_ok,bind_eq_ok]
    constructor
    · rintro ⟨⟨n,t⟩,hn,h⟩
      dsimp only at h
      split_ifs at h with hle
      obtain ⟨h,hall⟩ := (N.readMany_iff _ _ _ _).1 h
      exact ⟨⟨_,hn,by simpa [hle] using h⟩,hall⟩
    · rintro ⟨⟨⟨n,t⟩,hn,h⟩,hall⟩
      dsimp only at h
      split_ifs at h with hle
      exact ⟨_,hn,by simpa [hle] using (N.readMany_iff _ _ _ _).2 ⟨h,hall⟩⟩

def counted {bound : Nat} {hbound : bound<2^64} {excess e : ε} (N : Stricter F) :
    Stricter (Format.counted bound hbound excess e F) where
  strict := Format.counted bound hbound excess e N.strict
  fine xs := ∀ x ∈ xs,N.fine x
  read_iff b xs r := by
    have hF : countedRead bound excess e F b=.ok (xs,r) ↔
        (Format.list bound hbound e F).read b=.ok (xs,r) := countedRead_ok
    have hN : countedRead bound excess e N.strict b=.ok (xs,r) ↔
        (Format.list bound hbound e N.strict).read b=.ok (xs,r) := countedRead_ok
    exact (hN.trans (N.list.read_iff b xs r)).trans (and_congr_left' hF.symm)

theorem readAll_iff (N : Stricter F) {e : ε} {b : Bytes} {x : α} :
    N.strict.readAll e b=.ok x ↔ F.readAll e b=.ok x ∧ N.fine x := by
  rw [readAll_ok,readAll_ok,N.read_iff]

/-- The stricter format takes the bytes too, exactly when the value of the other is fine. -/
theorem isOk_iff (N : Stricter F) {e : ε} {b : Bytes} {x : α} (h : F.readAll e b=.ok x) :
    (N.strict.readAll e b).isOk=true ↔ N.fine x := by
  constructor
  · intro hok
    cases hs : N.strict.readAll e b with
    | error status =>
      rw [hs] at hok
      cases hok
    | ok y =>
      obtain ⟨hy,hfine⟩ := N.readAll_iff.1 hs
      rw [h] at hy
      rwa [Except.ok.inj hy]
  · intro hfine
    rw [N.readAll_iff.2 ⟨h,hfine⟩]
    rfl

end Stricter

/-- `F` reads what `G` reads, and gives `f` of it. -/
def Reads (F : Format ε α) (G : Format ε β) (f : β → α) : Prop :=
  ∀ b,F.read b=(G.read b).map fun y => (f y.1,y.2)

namespace Reads

variable {γ δ : Type} {F : Format ε α} {G : Format ε β} {f : β → α}

theorem same (F : Format ε α) : F.Reads F id := fun b => by
  cases F.read b <;> rfl

theorem cast [DecidableEq α] (values : List α) (hall) (hsize) (fallback : α) (e : ε) :
    (Format.cast values hall hsize fallback e).Reads (u8 e)
      fun n => (values[n.toNat]?).getD fallback := fun b => by
  show ((u8 e).read b).bind _=_
  cases (u8 e).read b <;> rfl

theorem pair {F' : Format ε γ} {G' : Format ε δ} {g : δ → γ} (h : F.Reads G f) (k : F'.Reads G' g) :
    (F.pair F').Reads (G.pair G') fun y => (f y.1,g y.2) := fun b => by
  show (F.read b).bind _=((G.read b).bind _).map _
  rw [h b]
  cases G.read b with
  | error => rfl
  | ok y =>
    show (F'.read y.2).bind _=((G'.read y.2).bind _).map _
    rw [k y.2]
    cases G'.read y.2 <;> rfl

theorem view {enc : γ → α} {dec : α → γ} {hdec : ∀ x,dec (enc x)=x} {henc : ∀ y,enc (dec y)=y}
    (h : F.Reads G f) : (Format.view enc dec hdec henc F).Reads G fun y => dec (f y) := fun b => by
  show (F.read b).bind _=_
  rw [h b]
  cases G.read b <;> rfl

theorem projected {enc : γ → α} {dec : α → γ} {henc : ∀ y,enc (dec y)=y} (h : F.Reads G f) :
    (Format.projected enc dec henc F).Reads G fun y => dec (f y) := fun b => by
  show (F.read b).bind _=_
  rw [h b]
  cases G.read b <;> rfl

theorem readMany (h : F.Reads G f) (n : Nat) (b : Bytes) :
    F.readMany n b=(G.readMany n b).map fun y => (y.1.map f,y.2) := by
  induction n generalizing b with
  | zero => rfl
  | succ n ih =>
    show (F.read b).bind _=((G.read b).bind _).map _
    rw [h b]
    cases G.read b with
    | error => rfl
    | ok y =>
      show (F.readMany n y.2).bind _=((G.readMany n y.2).bind _).map _
      rw [ih y.2]
      cases G.readMany n y.2 <;> rfl

theorem counted {bound : Nat} {hbound : bound<2^64} {excess e : ε} (h : F.Reads G f) :
    (Format.counted bound hbound excess e F).Reads (Format.counted bound hbound excess e G)
      fun ys => ys.map f := fun b => by
  show ((u64 e).read b).bind _=(((u64 e).read b).bind _).map _
  cases (u64 e).read b with
  | error => rfl
  | ok n =>
    show (if n.1.toNat ≤ bound then F.readMany n.1.toNat n.2 else .error excess)=
      (if n.1.toNat ≤ bound then G.readMany n.1.toNat n.2 else .error excess).map _
    rw [h.readMany]
    split_ifs <;> rfl

theorem readAll (h : F.Reads G f) (e : ε) (b : Bytes) :
    F.readAll e b=(G.readAll e b).map f := by
  show (F.read b).bind _=((G.read b).bind _).map f
  rw [h b]
  cases G.read b with
  | error => rfl
  | ok y =>
    show (if y.2.isEmpty then .ok (f y.1) else .error e)=
      (if y.2.isEmpty then Except.ok y.1 else .error e).map f
    split_ifs <;> rfl

end Reads

end CompilerFabric.Base.Format
