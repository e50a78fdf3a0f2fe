import Mathlib.Algebra.Order.Ring.Nat
import Mathlib.Data.List.Nodup
import Mathlib.Data.List.Perm.Subperm
import Mathlib.Tactic.Common

namespace CompilerFabric.Base

abbrev Bytes := List UInt8

instance lawfulBEqBytes : LawfulBEq Bytes := inferInstanceAs (LawfulBEq (List UInt8))

def leBytes : Nat → Nat → Bytes
  | 0,_ => []
  | k+1,n => UInt8.ofNat (n%256) :: leBytes k (n/256)

def leValue : Bytes → Nat
  | [] => 0
  | b::bs => b.toNat+256*leValue bs

@[simp] theorem leBytes_length (k n : Nat) : (leBytes k n).length=k := by
  induction k generalizing n with
  | zero => rfl
  | succ k ih => simp [leBytes,ih]

theorem leValue_leBytes (k n : Nat) (h : n<256^k) : leValue (leBytes k n)=n := by
  induction k generalizing n with
  | zero => simp at h; simp [leBytes,leValue,h]
  | succ k ih =>
    have hq : n/256<256^k := by
      rw [Nat.pow_succ] at h
      exact Nat.div_lt_of_lt_mul (by omega)
    have hb : (UInt8.ofNat (n%256)).toNat=n%256 := by
      simp [UInt8.toNat_ofNat']
    rw [leBytes,leValue,ih _ hq,hb]
    omega

theorem leValue_lt (b : Bytes) : leValue b<256^b.length := by
  induction b with
  | nil => simp [leValue]
  | cons x b ih =>
    have hx := x.toNat_lt
    rw [leValue,List.length_cons,Nat.pow_succ]
    omega

theorem leBytes_leValue (b : Bytes) : leBytes b.length (leValue b)=b := by
  induction b with
  | nil => rfl
  | cons x b ih =>
    have hx := x.toNat_lt
    have hm : (x.toNat+256*leValue b)%256=x.toNat := by omega
    have hd : (x.toNat+256*leValue b)/256=leValue b := by omega
    simp [leBytes,leValue,hm,hd,ih]

theorem bind_eq_ok {ε α β : Type} {x : Except ε α} {f : α → Except ε β} {y : β} :
    x.bind f=.ok y ↔ ∃ a,x=.ok a ∧ f a=.ok y := by
  cases x <;> simp [Except.bind]

theorem do_eq_ok {ε α β : Type} {x : Except ε α} {f : α → Except ε β} {y : β} :
    (x >>= f)=.ok y ↔ ∃ a,x=.ok a ∧ f a=.ok y := bind_eq_ok

theorem exists_eq_ok {ε α : Type} {x : Except ε α} (h : x.isOk=true) : ∃ a,x=.ok a := by
  cases x with
  | error e => cases h
  | ok a => exact ⟨a,rfl⟩

/-- Two actions that agree on the elements of a list agree on the list. -/
theorem mapM_ok_congr {α β ε : Type} {f g : α → Except ε β} {l : List α}
    (h : ∀ x ∈ l,∀ y,f x=.ok y ↔ g x=.ok y) {ys : List β} : l.mapM f=.ok ys ↔ l.mapM g=.ok ys := by
  induction l generalizing ys with
  | nil => simp
  | cons x l ih =>
    simp only [List.mapM_cons,do_eq_ok]
    refine exists_congr fun y => and_congr (h x List.mem_cons_self y) (exists_congr fun zs => ?_)
    exact and_congr_left fun _ => ih fun z hz => h z (List.mem_cons_of_mem x hz)

theorem mem_of_mapM_ok {α β ε : Type} {f : α → Except ε β} {l : List α} {ys : List β}
    (h : l.mapM f=.ok ys) {y : β} (hy : y ∈ ys) : ∃ x ∈ l,f x=.ok y := by
  induction l generalizing ys with
  | nil =>
    cases h
    cases hy
  | cons x l ih =>
    simp only [List.mapM_cons,do_eq_ok] at h
    have ⟨z,hx,zs,hl,he⟩ := h
    cases he
    rcases List.mem_cons.1 hy with rfl | hy
    · exact ⟨x,List.mem_cons_self,hx⟩
    · have ⟨x',hm,hx'⟩ := ih hl hy
      exact ⟨x',List.mem_cons_of_mem x hm,hx'⟩

/-- `take count out`: the next `k` bytes, or a refusal. -/
def take {ε : Type} (k : Nat) (e : ε) (b : Bytes) : Except ε (Bytes × Bytes) :=
  if k ≤ b.length then .ok (b.take k,b.drop k) else .error e

theorem take_append {ε : Type} (x r : Bytes) (e : ε) :
    take x.length e (x++r)=.ok (x,r) := by
  simp [take]

theorem take_ok {ε : Type} {k : Nat} {e : ε} {b x r : Bytes} (h : take k e b=.ok (x,r)) :
    b=x++r ∧ x.length=k := by
  unfold take at h
  split_ifs at h with hk
  simp only [Except.ok.injEq,Prod.mk.injEq] at h
  obtain ⟨rfl,rfl⟩ := h
  exact ⟨(List.take_append_drop k b).symm,by simp [hk]⟩

/-- A writer with the reader meant to undo it. The laws make it exact: the reader gives
a value back from its own bytes precisely when the value is `good`, and what it reads does
not depend on the bytes that follow. -/
structure Format (ε α : Type) where
  write : α → Bytes
  read : Bytes → Except ε (α × Bytes)
  good : α → Prop
  read_write : ∀ x r, good x → read (write x++r)=.ok (x,r)
  good_of_read : ∀ x r r', read (write x++r)=.ok (x,r') → good x
  read_append : ∀ b x r s, read b=.ok (x,r) → read (b++s)=.ok (x,r++s)

namespace Format

variable {ε α β : Type}

theorem read_write_iff (F : Format ε α) (x : α) (r r' : Bytes) :
    F.read (F.write x++r)=.ok (x,r') ↔ F.good x ∧ r'=r := by
  constructor
  · intro h
    have hg := F.good_of_read x r r' h
    rw [F.read_write x r hg] at h
    simp only [Except.ok.injEq,Prod.mk.injEq,true_and] at h
    exact ⟨hg,h.symm⟩
  · rintro ⟨hg,rfl⟩
    exact F.read_write x _ hg

/-- Fixed-width little-endian words. -/
def word (k : Nat) (toNat : α → Nat) (ofNat : Nat → α) (hlt : ∀ x, toNat x<256^k)
    (hinv : ∀ x, ofNat (toNat x)=x) (e : ε) : Format ε α where
  write x := leBytes k (toNat x)
  read b := (take k e b).map fun (v,r) => (ofNat (leValue v),r)
  good _ := True
  read_write x r _ := by
    have h := take_append (leBytes k (toNat x)) r e
    rw [leBytes_length] at h
    rw [h]
    simp [Except.map,leValue_leBytes k _ (hlt x),hinv]
  good_of_read _ _ _ _ := trivial
  read_append b x r s h := by
    cases ht : take k e b with
    | error e' => simp [ht,Except.map] at h
    | ok v =>
      obtain ⟨v,r'⟩ := v
      obtain ⟨rfl,hl⟩ := take_ok ht
      have h' := take_append v (r'++s) e
      rw [hl] at h'
      simp only [ht,Except.map,Except.ok.injEq,Prod.mk.injEq] at h
      rw [List.append_assoc,h']
      simp [Except.map,h.1,h.2]

def u8 (e : ε) : Format ε UInt8 :=
  word 1 UInt8.toNat UInt8.ofNat (fun x => x.toNat_lt) (fun x => by simp) e

def u16 (e : ε) : Format ε UInt16 :=
  word 2 UInt16.toNat UInt16.ofNat (fun x => x.toNat_lt) (fun x => by simp) e

def u32 (e : ε) : Format ε UInt32 :=
  word 4 UInt32.toNat UInt32.ofNat (fun x => x.toNat_lt) (fun x => by simp) e

def u64 (e : ε) : Format ε UInt64 :=
  word 8 UInt64.toNat UInt64.ofNat (fun x => x.toNat_lt) (fun x => by simp) e

def i32 (e : ε) : Format ε Int32 :=
  word 4 (fun x => x.toUInt32.toNat) (fun n => (UInt32.ofNat n).toInt32)
    (fun x => x.toUInt32.toNat_lt) (fun x => by simp) e

def pair (F : Format ε α) (G : Format ε β) : Format ε (α × β) where
  write x := F.write x.1++G.write x.2
  read b := (F.read b).bind fun (x,r) => (G.read r).bind fun (y,r') => .ok ((x,y),r')
  good x := F.good x.1 ∧ G.good x.2
  read_write x r h := by
    simp [Except.bind,F.read_write _ _ h.1,G.read_write _ _ h.2]
  good_of_read x r r' h := by
    rw [List.append_assoc] at h
    obtain ⟨⟨a,b⟩,ha,h⟩ := bind_eq_ok.1 h
    obtain ⟨⟨c,d⟩,hc,h⟩ := bind_eq_ok.1 h
    simp only [Except.ok.injEq,Prod.mk.injEq] at h
    obtain ⟨rfl,rfl⟩ := h
    obtain ⟨hx,rfl⟩ := (F.read_write_iff _ _ _).1 ha
    exact ⟨hx,G.good_of_read _ _ _ hc⟩
  read_append b x r s h := by
    obtain ⟨⟨a,b'⟩,ha,h⟩ := bind_eq_ok.1 h
    obtain ⟨⟨c,d⟩,hc,h⟩ := bind_eq_ok.1 h
    simp only [Except.ok.injEq,Prod.mk.injEq] at h
    obtain ⟨rfl,rfl⟩ := h
    simp [Except.bind,F.read_append _ _ _ s ha,G.read_append _ _ _ s hc]

/-- A good first component is read back whatever follows it. -/
theorem pair_read (F : Format ε α) (G : Format ε β) {x y : α × β} {r r' : Bytes}
    (h : (F.pair G).read ((F.pair G).write x++r)=.ok (y,r')) (hx : F.good x.1) :
    y.1=x.1 ∧ G.read (G.write x.2++r)=.ok (y.2,r') := by
  simp only [pair,List.append_assoc,F.read_write _ _ hx,Except.bind] at h
  obtain ⟨⟨c,d⟩,hc,h⟩ := bind_eq_ok.1 h
  simp only [Except.ok.injEq,Prod.mk.injEq] at h
  obtain ⟨rfl,rfl⟩ := h
  exact ⟨rfl,hc⟩

/-- The same bytes seen as a record: `enc` and `dec` are inverse. -/
def view (enc : α → β) (dec : β → α) (hdec : ∀ x,dec (enc x)=x) (henc : ∀ y,enc (dec y)=y)
    (F : Format ε β) : Format ε α where
  write x := F.write (enc x)
  read b := (F.read b).bind fun (y,r) => .ok (dec y,r)
  good x := F.good (enc x)
  read_write x r h := by simp [Except.bind,F.read_write _ _ h,hdec]
  good_of_read x r r' h := by
    obtain ⟨⟨y,t⟩,hy,h⟩ := bind_eq_ok.1 h
    simp only [Except.ok.injEq,Prod.mk.injEq] at h
    obtain ⟨rfl,rfl⟩ := h
    rw [henc] at hy ⊢
    exact F.good_of_read _ _ _ hy
  read_append b x r s h := by
    obtain ⟨⟨y,t⟩,hy,h⟩ := bind_eq_ok.1 h
    simp only [Except.ok.injEq,Prod.mk.injEq] at h
    obtain ⟨rfl,rfl⟩ := h
    simp [Except.bind,F.read_append _ _ _ s hy]

/-- A reader that also checks what it read: it accepts the image of `enc` on `P` only. -/
def refine (P : α → Prop) (enc : α → β) (dec : β → Except ε α)
    (hdec : ∀ x,P x → dec (enc x)=.ok x) (henc : ∀ x y,dec y=.ok x → P x ∧ y=enc x)
    (F : Format ε β) : Format ε α where
  write x := F.write (enc x)
  read b := (F.read b).bind fun (y,r) => (dec y).bind fun x => .ok (x,r)
  good x := P x ∧ F.good (enc x)
  read_write x r h := by simp [Except.bind,F.read_write _ _ h.2,hdec x h.1]
  good_of_read x r r' h := by
    obtain ⟨⟨y,t⟩,hy,h⟩ := bind_eq_ok.1 h
    obtain ⟨x',hx,h⟩ := bind_eq_ok.1 h
    simp only [Except.ok.injEq,Prod.mk.injEq] at h
    obtain ⟨rfl,rfl⟩ := h
    obtain ⟨hp,rfl⟩ := henc _ _ hx
    exact ⟨hp,F.good_of_read _ _ _ hy⟩
  read_append b x r s h := by
    obtain ⟨⟨y,t⟩,hy,h⟩ := bind_eq_ok.1 h
    obtain ⟨x',hx,h⟩ := bind_eq_ok.1 h
    simp only [Except.ok.injEq,Prod.mk.injEq] at h
    obtain ⟨rfl,rfl⟩ := h
    simp [Except.bind,F.read_append _ _ _ s hy,hx]

/-- A reader that accepts more spellings than the writer uses. -/
def lenient (enc : α → β) (dec : β → Except ε α) (hdec : ∀ x,dec (enc x)=.ok x)
    (F : Format ε β) (hgood : ∀ x,F.good (enc x)) : Format ε α where
  write x := F.write (enc x)
  read b := (F.read b).bind fun (y,r) => (dec y).bind fun x => .ok (x,r)
  good _ := True
  read_write x r _ := by simp [Except.bind,F.read_write _ _ (hgood x),hdec]
  good_of_read _ _ _ _ := trivial
  read_append b x r s h := by
    obtain ⟨⟨y,t⟩,hy,h⟩ := bind_eq_ok.1 h
    obtain ⟨x',hx,h⟩ := bind_eq_ok.1 h
    simp only [Except.ok.injEq,Prod.mk.injEq] at h
    obtain ⟨rfl,rfl⟩ := h
    simp [Except.bind,F.read_append _ _ _ s hy,hx]

def check (p : α → Bool) (e : ε) (F : Format ε α) : Format ε α where
  write := F.write
  read b := (F.read b).bind fun (x,r) => if p x then .ok (x,r) else .error e
  good x := F.good x ∧ p x
  read_write x r h := by simp [Except.bind,F.read_write _ _ h.1,h.2]
  good_of_read x r r' h := by
    obtain ⟨⟨y,t⟩,hy,h⟩ := bind_eq_ok.1 h
    dsimp only at h
    split_ifs at h with hp
    simp only [Except.ok.injEq,Prod.mk.injEq] at h
    obtain ⟨rfl,rfl⟩ := h
    exact ⟨F.good_of_read _ _ _ hy,hp⟩
  read_append b x r s h := by
    obtain ⟨⟨y,t⟩,hy,h⟩ := bind_eq_ok.1 h
    dsimp only at h
    split_ifs at h with hp
    simp only [Except.ok.injEq,Prod.mk.injEq] at h
    obtain ⟨rfl,rfl⟩ := h
    simp [Except.bind,F.read_append _ _ _ s hy,hp]

/-- A tag the writer always writes and the reader insists on. -/
def expect (v : α) [DecidableEq α] (e : ε) (F : Format ε α) (hv : F.good v) : Format ε Unit where
  write _ := F.write v
  read b := (F.read b).bind fun (x,r) => if x=v then .ok ((),r) else .error e
  good _ := True
  read_write _ r _ := by simp [Except.bind,F.read_write _ _ hv]
  good_of_read _ _ _ _ := trivial
  read_append b x r s h := by
    obtain ⟨⟨y,t⟩,hy,h⟩ := bind_eq_ok.1 h
    dsimp only at h
    split_ifs at h with hp
    simp only [Except.ok.injEq,Prod.mk.injEq,true_and] at h
    subst h
    simp [Except.bind,F.read_append _ _ _ s hy,hp]

/-- Length-prefixed bytes. The writer stores the length in 32 bits and never refuses;
the reader refuses a length over `bound`. -/
def text (bound : Nat) (hbound : bound<2^32) (e : ε) : Format ε Bytes where
  write s := (u32 e).write (UInt32.ofNat s.length)++s
  read b := ((u32 e).read b).bind fun (n,r) =>
    if n.toNat ≤ bound then take n.toNat e r else .error e
  good s := s.length ≤ bound
  read_write s r h := by
    have hn : (UInt32.ofNat s.length).toNat=s.length := UInt32.toNat_ofNat_of_lt (Nat.lt_of_le_of_lt h hbound)
    rw [List.append_assoc,(u32 e).read_write _ _ trivial]
    simp [Except.bind,hn,h,take_append]
  good_of_read s r r' h := by
    rw [List.append_assoc,(u32 e).read_write _ _ trivial] at h
    simp only [Except.bind] at h
    split_ifs at h with hb
    exact (take_ok h).2 ▸ hb
  read_append b x r s h := by
    obtain ⟨⟨n,t⟩,hn,h⟩ := bind_eq_ok.1 h
    dsimp only at h
    split_ifs at h with hb
    obtain ⟨rfl,hl⟩ := take_ok h
    have ht := take_append x (r++s) e
    rw [hl] at ht
    rw [(u32 e).read_append _ _ _ s hn]
    simp [Except.bind,hb,ht]

theorem text_read_length (bound : Nat) (hbound) (e : ε) (s b t : Bytes) (r : Bytes)
    (h : (text bound hbound e).read (((text bound hbound e).write s)++b)=.ok (t,r)) :
    t <+: s++b ∧ t.length=s.length%2^32 := by
  simp only [text] at h
  rw [List.append_assoc,(u32 e).read_write _ _ trivial] at h
  simp only [Except.bind] at h
  split_ifs at h
  obtain ⟨hb,hl⟩ := take_ok h
  exact ⟨⟨r,hb.symm⟩,by simpa using hl⟩

def readMany (F : Format ε α) : Nat → Bytes → Except ε (List α × Bytes)
  | 0,b => .ok ([],b)
  | n+1,b => (F.read b).bind fun (x,r) => (readMany F n r).bind fun (xs,r') => .ok (x::xs,r')

theorem readMany_length (F : Format ε α) {n : Nat} {b : Bytes} {xs : List α} {r : Bytes}
    (h : F.readMany n b=.ok (xs,r)) : xs.length=n := by
  induction n generalizing b xs r with
  | zero =>
    simp only [readMany,Except.ok.injEq,Prod.mk.injEq] at h
    simp [← h.1]
  | succ n ih =>
    obtain ⟨⟨x,t⟩,_,h⟩ := bind_eq_ok.1 h
    obtain ⟨⟨ys,t'⟩,hys,h⟩ := bind_eq_ok.1 h
    simp only [Except.ok.injEq,Prod.mk.injEq] at h
    simp [← h.1,ih hys]

theorem readMany_append (F : Format ε α) {n : Nat} {b : Bytes} {xs : List α} {r : Bytes}
    (s : Bytes) (h : F.readMany n b=.ok (xs,r)) : F.readMany n (b++s)=.ok (xs,r++s) := by
  induction n generalizing b xs r with
  | zero =>
    simp only [readMany,Except.ok.injEq,Prod.mk.injEq] at h ⊢
    simp [h]
  | succ n ih =>
    obtain ⟨⟨x,t⟩,hx,h⟩ := bind_eq_ok.1 h
    obtain ⟨⟨ys,t'⟩,hys,h⟩ := bind_eq_ok.1 h
    simp only [Except.ok.injEq,Prod.mk.injEq] at h
    obtain ⟨rfl,rfl⟩ := h
    simp [readMany,Except.bind,F.read_append _ _ _ s hx,ih hys]

theorem readMany_write (F : Format ε α) (xs : List α) (r : Bytes) (h : ∀ x ∈ xs,F.good x) :
    F.readMany xs.length (xs.flatMap F.write++r)=.ok (xs,r) := by
  induction xs with
  | nil => rfl
  | cons x xs ih =>
    have hx := h x (by simp)
    have hxs := ih fun y hy => h y (by simp [hy])
    simp [readMany,Except.bind,F.read_write _ _ hx,hxs]

theorem good_of_readMany (F : Format ε α) (xs : List α) (r r' : Bytes)
    (h : F.readMany xs.length (xs.flatMap F.write++r)=.ok (xs,r')) : ∀ x ∈ xs,F.good x := by
  induction xs with
  | nil => simp
  | cons x xs ih =>
    rw [List.flatMap_cons,List.append_assoc] at h
    obtain ⟨⟨y,t⟩,hy,h⟩ := bind_eq_ok.1 h
    obtain ⟨⟨ys,t'⟩,hys,h⟩ := bind_eq_ok.1 h
    simp only [Except.ok.injEq,Prod.mk.injEq,List.cons.injEq] at h
    obtain ⟨⟨rfl,rfl⟩,rfl⟩ := h
    obtain ⟨hg,rfl⟩ := (F.read_write_iff _ _ _).1 hy
    simpa [hg] using ih hys

/-- A counted sequence: the count in 64 bits, refused by the reader over `bound`. -/
def list (bound : Nat) (hbound : bound<2^64) (e : ε) (F : Format ε α) : Format ε (List α) where
  write xs := (u64 e).write (UInt64.ofNat xs.length)++xs.flatMap F.write
  read b := ((u64 e).read b).bind fun (n,r) =>
    if n.toNat ≤ bound then F.readMany n.toNat r else .error e
  good xs := xs.length ≤ bound ∧ ∀ x ∈ xs,F.good x
  read_write xs r h := by
    have hn : (UInt64.ofNat xs.length).toNat=xs.length := UInt64.toNat_ofNat_of_lt (Nat.lt_of_le_of_lt h.1 hbound)
    rw [List.append_assoc,(u64 e).read_write _ _ trivial]
    simp [Except.bind,hn,h.1,F.readMany_write xs r h.2]
  good_of_read xs r r' h := by
    rw [List.append_assoc,(u64 e).read_write _ _ trivial] at h
    simp only [Except.bind] at h
    split_ifs at h with hb
    have hl := F.readMany_length h
    rw [← hl] at hb h
    exact ⟨hb,F.good_of_readMany _ _ _ h⟩
  read_append b x r s h := by
    obtain ⟨⟨n,t⟩,hn,h⟩ := bind_eq_ok.1 h
    dsimp only at h
    split_ifs at h with hb
    rw [(u64 e).read_append _ _ _ s hn]
    simp [Except.bind,hb,F.readMany_append s h]

/-- Elements are recognised by a key the reader always gets right: if looking every key of
`xs` up in what was read finds the element written, then exactly `xs` was read. -/
theorem readMany_keyed {κ : Type} [DecidableEq κ] (F : Format ε α) (key : α → κ)
    (hkey : ∀ x y r r', F.read (F.write x++r)=.ok (y,r') → key y=key x)
    {xs ys : List α} {r r' : Bytes} (hnd : (xs.map key).Nodup)
    (hfind : ∀ x ∈ xs,ys.find? (key ·=key x)=some x)
    (h : F.readMany xs.length (xs.flatMap F.write++r)=.ok (ys,r')) : ys=xs := by
  induction xs generalizing ys with
  | nil =>
    simp only [List.length_nil,readMany,Except.ok.injEq,Prod.mk.injEq] at h
    exact h.1.symm
  | cons x xs ih =>
    rw [List.flatMap_cons,List.append_assoc] at h
    obtain ⟨⟨y,t⟩,hy,h⟩ := bind_eq_ok.1 h
    obtain ⟨⟨zs,t'⟩,hzs,h⟩ := bind_eq_ok.1 h
    simp only [Except.ok.injEq,Prod.mk.injEq] at h
    obtain ⟨rfl,rfl⟩ := h
    have hyx : y=x := by simpa [hkey _ _ _ _ hy] using hfind x (by simp)
    subst hyx
    obtain ⟨_,rfl⟩ := (F.read_write_iff _ _ _).1 hy
    rw [List.map_cons,List.nodup_cons] at hnd
    have htail : ∀ x ∈ xs,zs.find? (key ·=key x)=some x := by
      intro x hx
      have hne : key y ≠ key x := fun he => hnd.1 (he ▸ List.mem_map_of_mem hx)
      simpa [hne] using hfind x (by simp [hx])
    rw [ih hnd.2 htail hzs]

/-- A map stored as the list of its values, rebuilt by inserting them under their keys. -/
def keyed {κ : Type} [DecidableEq κ] (bound : Nat) (hbound : bound<2^64) (e : ε)
    (F : Format ε α) (key : α → κ)
    (hkey : ∀ x y r r', F.read (F.write x++r)=.ok (y,r') → key y=key x)
    (P : β → Prop) (enc : β → List α) (dec : List α → β) (hdec : ∀ x,P x → dec (enc x)=x)
    (hP : ∀ ys,P (dec ys)) (hnd : ∀ x,P x → ((enc x).map key).Nodup)
    (hfind : ∀ ys,∀ a ∈ enc (dec ys),ys.find? (key ·=key a)=some a) : Format ε β where
  write x := (list bound hbound e F).write (enc x)
  read b := ((list bound hbound e F).read b).bind fun (ys,r) => .ok (dec ys,r)
  good x := P x ∧ (list bound hbound e F).good (enc x)
  read_write x r h := by
    simp [Except.bind,(list bound hbound e F).read_write _ _ h.2,hdec x h.1]
  good_of_read x r r' h := by
    obtain ⟨⟨ys,t⟩,hy,h⟩ := bind_eq_ok.1 h
    simp only [Except.ok.injEq,Prod.mk.injEq] at h
    obtain ⟨rfl,rfl⟩ := h
    have hys := hy
    simp only [list] at hys
    rw [List.append_assoc,(u64 e).read_write _ _ trivial] at hys
    simp only [Except.bind] at hys
    split_ifs at hys with hb
    have hx := hP ys
    have hlen : (enc (dec ys)).length ≤ ys.length :=
      (List.Nodup.of_map key (hnd _ hx)).subperm (fun a ha =>
        List.mem_of_find?_eq_some (hfind ys a ha)) |>.length_le
    have hn : (UInt64.ofNat (enc (dec ys)).length).toNat=(enc (dec ys)).length := by
      have hle := Nat.mod_le (enc (dec ys)).length (2^64)
      have hc := F.readMany_length hys
      rw [UInt64.toNat_ofNat'] at hc ⊢
      omega
    rw [hn] at hys
    have heq := readMany_keyed F key hkey (hnd _ hx) (hfind ys) hys
    rw [← heq] at hy
    exact ⟨hx,heq ▸ (list bound hbound e F).good_of_read _ r t hy⟩
  read_append b x r s h := by
    obtain ⟨⟨ys,t⟩,hy,h⟩ := bind_eq_ok.1 h
    simp only [Except.ok.injEq,Prod.mk.injEq] at h
    obtain ⟨rfl,rfl⟩ := h
    simp [Except.bind,(list bound hbound e F).read_append _ _ _ s hy]

/-- The whole input read as one value; `e` when bytes are left over. -/
def readAll (F : Format ε α) (e : ε) (b : Bytes) : Except ε α :=
  (F.read b).bind fun (x,r) => if r.isEmpty then .ok x else .error e

theorem readAll_ok {F : Format ε α} {e : ε} {b : Bytes} {x : α} :
    F.readAll e b=.ok x ↔ F.read b=.ok (x,[]) := by
  unfold readAll
  rw [bind_eq_ok]
  constructor
  · rintro ⟨⟨y,r⟩,hy,h⟩
    dsimp only at h
    split_ifs at h with hr
    simp only [Except.ok.injEq] at h
    rw [hy,h,List.isEmpty_iff.1 hr]
  · intro h
    exact ⟨_,h,by simp⟩

/-- Reading back what was written gives the value itself exactly when it is good. -/
theorem readAll_write (F : Format ε α) (e : ε) (x : α) :
    F.readAll e (F.write x)=.ok x ↔ F.good x := by
  have h := F.read_write_iff x [] []
  rw [List.append_nil] at h
  simp [readAll_ok,h]

/-- A one-byte enumeration: the position in `values`, refused past its end. -/
def enumeration [DecidableEq α] (values : List α) (hall : ∀ x,x ∈ values) (hnd : values.Nodup)
    (hsize : values.length ≤ 256) (e : ε) : Format ε α :=
  refine (fun _ => True) (fun x => UInt8.ofNat (values.idxOf x))
    (fun n => match values[n.toNat]? with | some x => .ok x | none => .error e)
    (fun x _ => by
      have hx := List.idxOf_lt_length_iff.2 (hall x)
      have hn : (UInt8.ofNat (values.idxOf x)).toNat=values.idxOf x :=
        UInt8.toNat_ofNat_of_lt (Nat.lt_of_lt_of_le hx hsize)
      rw [hn,List.getElem?_eq_getElem hx,List.getElem_idxOf hx])
    (fun x n h => by
      split at h
      · next y hy =>
        simp only [Except.ok.injEq] at h
        subst h
        obtain ⟨hn,hy⟩ := List.getElem?_eq_some_iff.1 hy
        refine ⟨trivial,?_⟩
        rw [← hy,hnd.idxOf_getElem]
        simp
      · cases h)
    (u8 e)

/-- A nested encoding stored as one length-prefixed text. -/
def blob (bound : Nat) (hbound : bound<2^32) (e trailing : ε) (F : Format ε α) :
    Format ε α where
  write x := (text bound hbound e).write (F.write x)
  read b := ((text bound hbound e).read b).bind fun (t,r) =>
    (F.readAll trailing t).bind fun x => .ok (x,r)
  good x := F.good x ∧ (F.write x).length ≤ bound
  read_write x r h := by
    rw [(text bound hbound e).read_write _ _ h.2]
    simp [Except.bind,(F.readAll_write trailing x).2 h.1]
  good_of_read x r r' h := by
    obtain ⟨⟨t,r₁⟩,ht,h⟩ := bind_eq_ok.1 h
    obtain ⟨y,hy,h⟩ := bind_eq_ok.1 h
    simp only [Except.ok.injEq,Prod.mk.injEq] at h
    obtain ⟨rfl,rfl⟩ := h
    rw [readAll_ok] at hy
    obtain ⟨⟨u,hu⟩,hl⟩ := text_read_length _ _ _ _ _ _ _ ht
    -- `t` is a prefix of the nested bytes, so by `read_append` those bytes read as `y` too.
    have hlen : t.length ≤ (F.write y).length := by
      rw [hl]; exact Nat.mod_le _ _
    have hp : t <+: F.write y := (List.prefix_of_prefix_length_le ⟨u,hu⟩ ⟨r,rfl⟩ hlen)
    obtain ⟨v,hv⟩ := hp
    have hread := F.read_append _ _ _ v hy
    rw [hv,List.nil_append] at hread
    have hread' : F.read (F.write y++[])=.ok (y,v) := by rwa [List.append_nil]
    obtain ⟨hg,rfl⟩ := (F.read_write_iff y [] v).1 hread'
    rw [List.append_nil] at hv
    subst hv
    exact ⟨hg,(text bound hbound e).good_of_read _ _ _ ht⟩
  read_append b x r s h := by
    obtain ⟨⟨t,r₁⟩,ht,h⟩ := bind_eq_ok.1 h
    obtain ⟨y,hy,h⟩ := bind_eq_ok.1 h
    simp only [Except.ok.injEq,Prod.mk.injEq] at h
    obtain ⟨rfl,rfl⟩ := h
    simp [Except.bind,(text bound hbound e).read_append _ _ _ s ht,hy]

/-- What a blob reads from the bytes of `x`, its nested reader reads from them as well. -/
theorem blob_read (bound : Nat) (hbound) (e trailing : ε) (F : Format ε α) {x y : α}
    {r r' : Bytes} (h : (blob bound hbound e trailing F).read
      ((blob bound hbound e trailing F).write x++r)=.ok (y,r')) :
    ∃ v,F.read (F.write x)=.ok (y,v) := by
  obtain ⟨⟨t,r₁⟩,ht,h⟩ := bind_eq_ok.1 h
  obtain ⟨y',hy,h⟩ := bind_eq_ok.1 h
  simp only [Except.ok.injEq,Prod.mk.injEq] at h
  obtain ⟨rfl,rfl⟩ := h
  rw [readAll_ok] at hy
  obtain ⟨⟨u,hu⟩,hl⟩ := text_read_length _ _ _ _ _ _ _ ht
  have hlen : t.length ≤ (F.write x).length := by
    rw [hl]
    exact Nat.mod_le _ _
  obtain ⟨v,hv⟩ := List.prefix_of_prefix_length_le ⟨u,hu⟩ ⟨r,rfl⟩ hlen
  exact ⟨v,by simpa [hv] using F.read_append _ _ _ v hy⟩

section Good

variable (e : ε) (x : α)

@[simp] theorem u8_good (n : UInt8) : (u8 e).good n := trivial
@[simp] theorem u16_good (n : UInt16) : (u16 e).good n := trivial
@[simp] theorem u32_good (n : UInt32) : (u32 e).good n := trivial
@[simp] theorem u64_good (n : UInt64) : (u64 e).good n := trivial
@[simp] theorem i32_good (n : Int32) : (i32 e).good n := trivial

@[simp] theorem pair_good (F : Format ε α) (G : Format ε β) (x : α × β) :
    (F.pair G).good x ↔ F.good x.1 ∧ G.good x.2 := Iff.rfl

@[simp] theorem view_good (enc : α → β) (dec : β → α) (hdec) (henc) (F : Format ε β) :
    (view enc dec hdec henc F).good x ↔ F.good (enc x) := Iff.rfl

@[simp] theorem refine_good (P : α → Prop) (enc : α → β) (dec : β → Except ε α) (hdec) (henc)
    (F : Format ε β) : (refine P enc dec hdec henc F).good x ↔ P x ∧ F.good (enc x) := Iff.rfl

@[simp] theorem check_good (p : α → Bool) (F : Format ε α) :
    (check p e F).good x ↔ F.good x ∧ p x := Iff.rfl

@[simp] theorem text_good (bound : Nat) (hbound) (s : Bytes) :
    (text bound hbound e).good s ↔ s.length ≤ bound := Iff.rfl

@[simp] theorem list_good (bound : Nat) (hbound) (F : Format ε α) (xs : List α) :
    (list bound hbound e F).good xs ↔ xs.length ≤ bound ∧ ∀ x ∈ xs,F.good x := Iff.rfl

@[simp] theorem blob_good (bound : Nat) (hbound) (trailing : ε) (F : Format ε α) :
    (blob bound hbound e trailing F).good x ↔ F.good x ∧ (F.write x).length ≤ bound := Iff.rfl

@[simp] theorem enumeration_good [DecidableEq α] (values : List α) (hall) (hnd) (hsize) :
    (enumeration values hall hnd hsize e).good x := ⟨trivial,trivial⟩

end Good

end Format

end CompilerFabric.Base
