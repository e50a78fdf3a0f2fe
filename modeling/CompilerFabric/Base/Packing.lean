import CompilerFabric.Base.Format

namespace CompilerFabric.Base.Format

variable {ε α β : Type}

/-- A counted sequence whose reader tells a count over the bound apart from bytes that are
missing. -/
def countedRead (bound : Nat) (excess e : ε) (F : Format ε α) (b : Bytes) : Except ε (List α × Bytes) :=
  ((u64 e).read b).bind fun (n,r) => if n.toNat ≤ bound then F.readMany n.toNat r else .error excess

theorem countedRead_ok {bound : Nat} {hbound : bound<2^64} {excess e : ε} {F : Format ε α} {b : Bytes}
    {v : List α × Bytes} :
    countedRead bound excess e F b=.ok v ↔ (list bound hbound e F).read b=.ok v := by
  unfold countedRead list
  rw [bind_eq_ok,bind_eq_ok]
  refine exists_congr fun n => and_congr_right fun _ => ?_
  dsimp only
  split_ifs <;> simp

def counted (bound : Nat) (hbound : bound<2^64) (excess e : ε) (F : Format ε α) :
    Format ε (List α) where
  write := (list bound hbound e F).write
  read := countedRead bound excess e F
  good := (list bound hbound e F).good
  read_write x r h := countedRead_ok.2 ((list bound hbound e F).read_write x r h)
  good_of_read x r r' h := (list bound hbound e F).good_of_read x r r' (countedRead_ok.1 h)
  read_append b x r s h := countedRead_ok.2 ((list bound hbound e F).read_append b x r s (countedRead_ok.1 h))

/-- A one-byte enumeration read without a check: what is no position in `values` is `fallback`. -/
def cast [DecidableEq α] (values : List α) (hall : ∀ x,x ∈ values) (hsize : values.length ≤ 256)
    (fallback : α) (e : ε) : Format ε α :=
  lenient (fun x => UInt8.ofNat (values.idxOf x)) (fun n => .ok ((values[n.toNat]?).getD fallback))
    (fun x => by
      have hx := List.idxOf_lt_length_iff.2 (hall x)
      have hn : (UInt8.ofNat (values.idxOf x)).toNat=values.idxOf x :=
        UInt8.toNat_ofNat_of_lt (Nat.lt_of_lt_of_le hx hsize)
      rw [hn,List.getElem?_eq_getElem hx,List.getElem_idxOf hx]
      rfl)
    (u8 e) fun _ => trivial

/-- A record of which only `enc x` is written; the reader gives the rest its value in `dec`. -/
def projected (enc : α → β) (dec : β → α) (henc : ∀ y,enc (dec y)=y) (F : Format ε β) : Format ε α :=
  refine (fun x => dec (enc x)=x) enc (fun y => .ok (dec y)) (fun _ h => congrArg Except.ok h)
    (fun x y h => by
      simp only [Except.ok.injEq] at h
      subst h
      rw [henc]
      exact ⟨rfl,rfl⟩) F

section Length

variable (e : ε)

@[simp] theorem u8_length (n : UInt8) : ((u8 e).write n).length=1 := leBytes_length 1 _
@[simp] theorem u16_length (n : UInt16) : ((u16 e).write n).length=2 := leBytes_length 2 _
@[simp] theorem u32_length (n : UInt32) : ((u32 e).write n).length=4 := leBytes_length 4 _
@[simp] theorem u64_length (n : UInt64) : ((u64 e).write n).length=8 := leBytes_length 8 _

@[simp] theorem pair_length (F : Format ε α) (G : Format ε β) (x : α × β) :
    ((F.pair G).write x).length=(F.write x.1).length+(G.write x.2).length := List.length_append

@[simp] theorem view_length (enc : α → β) (dec : β → α) (hdec) (henc) (F : Format ε β) (x : α) :
    ((view enc dec hdec henc F).write x).length=(F.write (enc x)).length := rfl

@[simp] theorem projected_length (enc : α → β) (dec : β → α) (henc) (F : Format ε β) (x : α) :
    ((projected enc dec henc F).write x).length=(F.write (enc x)).length := rfl

@[simp] theorem lenient_length (enc : α → β) (dec) (hdec) (F : Format ε β) (hgood) (x : α) :
    ((lenient enc dec hdec F hgood).write x).length=(F.write (enc x)).length := rfl

@[simp] theorem cast_length [DecidableEq α] (values : List α) (hall) (hsize) (fallback x : α) :
    ((cast values hall hsize fallback e).write x).length=1 := u8_length e _

@[simp] theorem text_length (bound : Nat) (hbound) (s : Bytes) :
    ((text bound hbound e).write s).length=s.length+4 := by
  simp [text,Nat.add_comm]

@[simp] theorem list_length (bound : Nat) (hbound) (F : Format ε α) (xs : List α) :
    ((list bound hbound e F).write xs).length=(xs.map fun x => (F.write x).length).sum+8 := by
  simp [list,List.length_flatMap,Nat.add_comm]

@[simp] theorem counted_length (bound : Nat) (hbound) (excess : ε) (F : Format ε α) (xs : List α) :
    ((counted bound hbound excess e F).write xs).length=(xs.map fun x => (F.write x).length).sum+8 :=
  list_length e bound hbound F xs

end Length

@[simp] theorem counted_good (bound : Nat) (hbound) (excess e : ε) (F : Format ε α) (xs : List α) :
    (counted bound hbound excess e F).good xs ↔ xs.length ≤ bound ∧ ∀ x ∈ xs,F.good x := Iff.rfl

@[simp] theorem projected_good (enc : α → β) (dec : β → α) (henc) (F : Format ε β) (x : α) :
    (projected enc dec henc F).good x ↔ dec (enc x)=x ∧ F.good (enc x) := Iff.rfl

@[simp] theorem cast_good [DecidableEq α] (values : List α) (hall) (hsize) (fallback x : α) (e : ε) :
    (cast values hall hsize fallback e).good x := trivial

end CompilerFabric.Base.Format
