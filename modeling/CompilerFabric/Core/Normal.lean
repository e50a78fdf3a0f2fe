import CompilerFabric.Core.Path
import Mathlib.Data.List.Forall2

namespace CompilerFabric

/-! Normalizing a path only takes bytes away. -/

/-- A path with the preferred separators. -/
def backslashed (path : Bytes) : Bytes := path.map fun c => if c==47 then 92 else c

theorem not_mem_backslashed (path : Bytes) : 47 ∉ backslashed path := by
  rw [backslashed,List.mem_map]
  rintro ⟨c,_,hc⟩
  split_ifs at hc with h
  · exact absurd hc (by decide)
  · exact h (by simp [hc])

theorem backslashed_eq {path : Bytes} (h : 47 ∉ path) : backslashed path=path := by
  rw [backslashed]
  refine (List.map_congr_left fun c hc => ?_).trans (List.map_id path)
  have hne : c ≠ 47 := fun he => h (he ▸ hc)
  simp [hne]

section Segments

variable {rel : Bytes} {c : UInt8}

/-- The text between the separators. -/
def segments (rel : Bytes) : List Bytes := rel.splitOnP isSlash

theorem segments_slash (h : isSlash c=true) : segments (c::rel)=[]::segments rel := by
  rw [segments,List.splitOnP_cons_eq_if_modifyHead,if_pos h]
  rfl

theorem segments_other (h : isSlash c=false) :
    ∃ segment rest,segments rel=segment::rest ∧ segments (c::rel)=(c::segment)::rest := by
  cases hs : segments rel with
  | nil => exact absurd hs (List.splitOnP_ne_nil _ _)
  | cons segment rest =>
    refine ⟨segment,rest,rfl,?_⟩
    rw [segments,List.splitOnP_cons_eq_if_modifyHead,if_neg (by simp [h])]
    change (segments rel).modifyHead (c::·)=_
    rw [hs]
    rfl

theorem pathParts_eq (rel : Bytes) : pathParts rel=(segments rel).filter fun part => !part.isEmpty := rfl

theorem backslashed_segments (rel : Bytes) : backslashed rel=[92].intercalate (segments rel) := by
  induction rel with
  | nil => rfl
  | cons c rel ih =>
    by_cases hc : isSlash c=true
    · have hslash : (if c==47 then 92 else c)=(92 : UInt8) := by
        simp only [isSlash,Bool.or_eq_true,beq_iff_eq] at hc
        rcases hc with rfl | rfl <;> rfl
      have hne : segments rel ≠ [] := List.splitOnP_ne_nil _ _
      rw [segments_slash hc,List.intercalate_cons_of_ne_nil hne,← ih]
      simp only [backslashed,List.map_cons,hslash]
      rfl
    · have hc : isSlash c=false := by simpa using hc
      obtain ⟨segment,rest,hs,hcons⟩ := @segments_other rel c hc
      have hother : (if c==47 then 92 else c)=c := by
        have h47 : c ≠ 47 := by rintro rfl; exact absurd hc (by decide)
        simp [h47]
      rw [hcons,List.intercalate_cons_cons_left,← hs,← ih]
      simp only [backslashed,List.map_cons,hother]

/-- A text that ends with a separator has an empty last segment. -/
theorem segments_getLast (h : rel.getLast?.any isSlash=true) : (segments rel).getLast?=some [] := by
  induction rel with
  | nil => exact absurd h (by simp)
  | cons c rel ih =>
    have hne : segments rel ≠ [] := List.splitOnP_ne_nil _ _
    cases rel with
    | nil =>
      have hc : isSlash c=true := by simpa using h
      rw [segments_slash hc]
      rfl
    | cons d rel =>
      have hrest := ih (by simpa only [List.getLast?_cons_cons] using h)
      by_cases hc : isSlash c=true
      · rw [segments_slash hc,List.getLast?_cons_of_ne_nil hne,hrest]
      · obtain ⟨segment,rest,hs,hcons⟩ := @segments_other (d::rel) c (by simpa using hc)
        rw [hs] at hrest
        rw [hcons]
        cases rest with
        | nil =>
          have hempty : segment=[] := by simpa using hrest
          by_cases hd : isSlash d=true
          · rw [segments_slash hd] at hs
            exact absurd (List.cons.inj hs).2 (List.splitOnP_ne_nil _ _)
          · obtain ⟨_,_,_,hcons'⟩ := @segments_other rel d (by simpa using hd)
            rw [hcons'] at hs
            exact absurd ((List.cons.inj hs).1.trans hempty) (by simp)
        | cons e rest => simpa only [List.getLast?_cons_cons] using hrest

end Segments

/-- What is left of some of the segments, joined, is left of the text. -/
theorem intercalate_sublist {xs ys : List Bytes} (h : List.SublistForall₂ List.Sublist xs ys) :
    ([92].intercalate xs).Sublist ([92].intercalate ys) := by
  induction h with
  | nil => exact List.nil_sublist _
  | @cons x y xs ys hxy h ih =>
    cases xs with
    | nil =>
      rw [List.intercalate_singleton]
      cases ys with
      | nil => rwa [List.intercalate_singleton]
      | cons y' ys =>
        rw [List.intercalate_cons_cons,List.append_assoc]
        exact hxy.trans (List.sublist_append_left _ _)
    | cons x' xs =>
      cases ys with
      | nil => cases h
      | cons y' ys =>
        rw [List.intercalate_cons_cons,List.intercalate_cons_cons]
        exact (hxy.append (.refl _)).append ih
  | @cons_right y xs ys h ih =>
    cases ys with
    | nil =>
      cases h
      exact List.nil_sublist _
    | cons y' ys =>
      rw [List.intercalate_cons_cons]
      exact ih.trans (List.sublist_append_right _ _)

theorem intercalate_concat_nil {xs : List Bytes} (h : xs ≠ []) :
    [92].intercalate (xs++[[]])=[92].intercalate xs++[92] := by
  induction xs with
  | nil => exact absurd rfl h
  | cons x xs ih =>
    cases xs with
    | nil => simp [List.intercalate_cons_cons]
    | cons y xs =>
      have hrest := ih (by simp)
      rw [List.cons_append,List.cons_append,List.intercalate_cons_cons,List.intercalate_cons_cons,
        ← List.cons_append,hrest]
      simp only [List.append_assoc]

theorem sublistForall₂_of_sublist {xs ys : List Bytes} (h : xs.Sublist ys) :
    List.SublistForall₂ List.Sublist xs ys :=
  List.sublistForall₂_iff.2 ⟨xs,List.forall₂_same.2 fun x _ => .refl x,h⟩

section Fold

variable {rooted : Bool} {acc parts : List Bytes} {part : Bytes}

/-- What one part does to those kept so far, the most recent first. -/
def keepPart (rooted : Bool) (acc : List Bytes) (part : Bytes) : List Bytes :=
  if part==[46] then acc
  else if part==[46,46] then
    match acc with
    | [] => if rooted then [] else [part]
    | last::before => if last==[46,46] then part::acc else before
  else part::acc

theorem foldParts_eq (rooted : Bool) (acc parts : List Bytes) :
    foldParts rooted acc parts=parts.foldl (keepPart rooted) acc := by
  induction parts generalizing acc with
  | nil => rw [foldParts,List.foldl_nil]
  | cons p parts ih =>
    rw [List.foldl_cons,← ih]
    cases acc <;> simp only [foldParts,keepPart] <;> split_ifs <;> rfl

/-- What is kept was there, in its order. -/
theorem keepPart_sublist (rooted : Bool) (acc : List Bytes) (part : Bytes) :
    (keepPart rooted acc part).reverse.Sublist (acc.reverse++[part]) := by
  have hskip : acc.reverse.Sublist (acc.reverse++[part]) := List.sublist_append_left _ _
  unfold keepPart
  by_cases h1 : (part==[46])=true
  · rwa [if_pos h1]
  by_cases h2 : (part==[46,46])=true
  · rw [if_neg h1,if_pos h2]
    cases acc with
    | nil =>
      dsimp only
      split_ifs <;> simp
    | cons last before =>
      dsimp only
      split_ifs
      · simp
      · refine List.Sublist.trans ?_ hskip
        rw [List.reverse_cons]
        exact List.sublist_append_left _ _
  · rw [if_neg h1,if_neg h2]
    simp

theorem foldParts_sublist (rooted : Bool) (acc parts : List Bytes) :
    (foldParts rooted acc parts).reverse.Sublist (acc.reverse++parts) := by
  rw [foldParts_eq]
  induction parts generalizing acc with
  | nil => simp
  | cons p parts ih =>
    rw [List.foldl_cons]
    refine (ih _).trans ?_
    have hstep := (keepPart_sublist rooted acc p).append_right parts
    simpa using hstep

/-- Without dot entries everything is kept. -/
theorem foldParts_plain (h : ∀ p ∈ parts,p ≠ [46] ∧ p ≠ [46,46]) (rooted : Bool)
    (acc : List Bytes) : foldParts rooted acc parts=parts.reverse++acc := by
  rw [foldParts_eq]
  induction parts generalizing acc with
  | nil => rfl
  | cons p parts ih =>
    obtain ⟨h1,h2⟩ := h p List.mem_cons_self
    have hstep : keepPart rooted acc p=p::acc := by simp [keepPart,h1,h2]
    rw [List.foldl_cons,hstep,ih fun q hq => h q (List.mem_cons_of_mem _ hq)]
    simp

end Fold

section Body

variable {rel : Bytes} {rooted : Bool}

/-- Whether `lexicallyNormal` ends the parts it keeps with a separator. -/
def endsOpen (rel : Bytes) (kept : List Bytes) : Bool :=
  (rel.getLast?.any isSlash || (pathParts rel).getLast?==some [46] ||
    (pathParts rel).getLast?==some [46,46]) && !kept.isEmpty && kept.head? != some [46,46]

theorem kept_sublist_parts (rel : Bytes) (rooted : Bool) :
    (foldParts rooted [] (pathParts rel)).reverse.Sublist (segments rel) := by
  have hkept := foldParts_sublist rooted [] (pathParts rel)
  rw [pathParts_eq] at hkept ⊢
  exact hkept.trans List.filter_sublist

/-- Where a separator is put behind the parts kept, the last segment is none of them. -/
theorem kept_sublist_dropLast (h : endsOpen rel (foldParts rooted [] (pathParts rel))=true) :
    (foldParts rooted [] (pathParts rel)).reverse.Sublist (segments rel).dropLast := by
  obtain ⟨init,last,hsegs⟩ : ∃ init last,segments rel=init++[last] :=
    (List.eq_nil_or_concat' _).resolve_left (List.splitOnP_ne_nil _ _)
  have hinit : ((init.filter fun part => !part.isEmpty) : List Bytes).Sublist init :=
    List.filter_sublist
  have hfold := foldParts_sublist rooted [] (init.filter fun part => !part.isEmpty)
  rw [hsegs,List.dropLast_concat]
  by_cases hlast : last=[]
  · have hparts : pathParts rel=init.filter fun part => !part.isEmpty := by
      rw [pathParts_eq,hsegs,hlast]
      simp
    rw [hparts]
    exact hfold.trans hinit
  · have hparts : pathParts rel=(init.filter fun part => !part.isEmpty)++[last] := by
      rw [pathParts_eq,hsegs]
      simp [hlast]
    have hstep : foldParts rooted [] (pathParts rel)=
        keepPart rooted (foldParts rooted [] (init.filter fun part => !part.isEmpty)) last := by
      rw [hparts,foldParts_eq,foldParts_eq,List.foldl_append]
      rfl
    simp only [endsOpen,Bool.and_eq_true,Bool.or_eq_true,beq_iff_eq,bne_iff_ne] at h
    obtain ⟨⟨hend,hne⟩,hhead⟩ := h
    have hdot : last=[46] ∨ last=[46,46] := by
      rcases hend with (hend | hend) | hend
      · have := segments_getLast hend
        rw [hsegs,List.getLast?_concat] at this
        exact absurd (Option.some.inj this) hlast
      · rw [hparts,List.getLast?_concat] at hend
        exact .inl (Option.some.inj hend)
      · rw [hparts,List.getLast?_concat] at hend
        exact .inr (Option.some.inj hend)
    rw [hstep] at hne hhead ⊢
    rcases hdot with rfl | rfl
    · exact hfold.trans hinit
    · have htwo : (([46,46] : Bytes)==[46])=false := by decide
      cases hacc : foldParts rooted [] (init.filter fun part => !part.isEmpty) with
      | nil =>
        rw [hacc] at hne hhead
        cases rooted with
        | true => simp [keepPart] at hne
        | false => simp [keepPart] at hhead
      | cons before acc =>
        rw [hacc] at hhead hfold
        simp only [keepPart,htwo,Bool.false_eq_true,if_false,beq_self_eq_true,if_true] at hhead ⊢
        split_ifs at hhead ⊢ with hup
        · exact absurd rfl hhead
        · refine List.Sublist.trans ?_ (hfold.trans hinit)
          rw [List.reverse_cons]
          exact List.sublist_append_left _ _

/-- The parts kept, with the separator behind them, are left of the text. -/
theorem body_sublist (rel : Bytes) (rooted : Bool) :
    (joinAscii (foldParts rooted [] (pathParts rel)).reverse [92]++
      if endsOpen rel (foldParts rooted [] (pathParts rel)) then [92] else []).Sublist
        (backslashed rel) := by
  rw [backslashed_segments,joinAscii]
  split_ifs with h
  · have hne : (foldParts rooted [] (pathParts rel)).reverse ≠ [] := by
      simp only [endsOpen,Bool.and_eq_true] at h
      simpa using h.1.2
    have hjoin : [92].intercalate (foldParts rooted [] (pathParts rel)).reverse++[92]=
        [92].intercalate ((foldParts rooted [] (pathParts rel)).reverse++[[]]) :=
      (intercalate_concat_nil hne).symm
    rw [hjoin]
    refine intercalate_sublist ?_
    have hsegs : segments rel=(segments rel).dropLast++[(segments rel).getLast (List.splitOnP_ne_nil _ _)] :=
      (List.dropLast_append_getLast _).symm
    rw [hsegs]
    obtain ⟨l,hl,hsub⟩ := List.sublistForall₂_iff.1 (sublistForall₂_of_sublist (kept_sublist_dropLast h))
    refine List.sublistForall₂_iff.2 ⟨l++[_],?_,hsub.append (.refl _)⟩
    exact List.rel_append hl (.cons (List.nil_sublist _) .nil)
  · rw [List.append_nil]
    exact intercalate_sublist (sublistForall₂_of_sublist (kept_sublist_parts rel rooted))

end Body

theorem pathParts_slash {c : UInt8} (h : isSlash c=true) (rel : Bytes) :
    pathParts (c::rel)=pathParts rel := by
  rw [pathParts_eq,pathParts_eq,segments_slash h]
  rfl

theorem pathParts_ne_nil {c : UInt8} (h : isSlash c=false) (rel : Bytes) :
    pathParts (c::rel) ≠ [] := by
  obtain ⟨segment,rest,_,hcons⟩ := @segments_other rel c h
  rw [pathParts_eq,hcons]
  simp

theorem backslashed_cons_slash {c : UInt8} (h : isSlash c=true) (rel : Bytes) :
    backslashed (c::rel)=92::backslashed rel := by
  simp only [isSlash,Bool.or_eq_true,beq_iff_eq] at h
  rcases h with rfl | rfl <;> rfl

/-- A path whose parts all cancel out holds a dot. -/
theorem dot_mem_of_empty {c : UInt8} {rel : Bytes} (hc : isSlash c=false)
    (h : foldParts false [] (pathParts (c::rel))=[]) : 46 ∈ backslashed (c::rel) := by
  by_contra hdot
  have hplain : ∀ p ∈ pathParts (c::rel),p ≠ [46] ∧ p ≠ [46,46] := by
    intro p hp
    have hmem : ∀ x ∈ p,x ∈ backslashed (c::rel) := by
      intro x hx
      rw [backslashed_segments]
      have hseg : p ∈ segments (c::rel) := (List.mem_filter.1 hp).1
      have hsub := intercalate_sublist (sublistForall₂_of_sublist (List.singleton_sublist.2 hseg))
      rw [List.intercalate_singleton] at hsub
      exact hsub.subset hx
    constructor <;> rintro rfl <;> exact hdot (hmem 46 (by simp))
  rw [foldParts_plain hplain] at h
  simp only [List.append_nil,List.reverse_eq_nil_iff] at h
  exact pathParts_ne_nil hc rel h

/-- No part is empty, so what they join to is empty only without parts. -/
theorem kept_of_join {rel : Bytes} {rooted : Bool}
    (h : joinAscii (foldParts rooted [] (pathParts rel)).reverse [92]=[]) :
    foldParts rooted [] (pathParts rel)=[] := by
  have hsub := foldParts_sublist rooted [] (pathParts rel)
  cases hkept : (foldParts rooted [] (pathParts rel)).reverse with
  | nil => exact List.reverse_eq_nil_iff.1 hkept
  | cons x xs =>
    rw [hkept] at h hsub
    have hx : x ≠ [] := by
      have hmem : x ∈ pathParts rel := hsub.subset List.mem_cons_self
      rw [pathParts_eq] at hmem
      simpa using (List.mem_filter.1 hmem).2
    rw [joinAscii] at h
    cases xs with
    | nil => exact absurd ((List.intercalate_singleton).symm.trans h) hx
    | cons y xs =>
      rw [List.intercalate_cons_cons] at h
      simp at h

theorem lexicallyNormal_sublist (path : Bytes) : (lexicallyNormal path).Sublist (backslashed path) := by
  by_cases hpath : path=[]
  · subst hpath
    exact .refl _
  unfold lexicallyNormal
  rw [if_neg (by simpa using hpath)]
  dsimp only
  generalize hn : rootNameEnd path=n
  generalize hrel : path.drop n=rel
  have hsplit : backslashed path=backslashed (path.take n)++backslashed rel := by
    rw [← hrel,backslashed,backslashed,backslashed,← List.map_append,List.take_append_drop]
  have hbody : ((if (rel.head?.any isSlash)=true then [92] else [])++
      (joinAscii (foldParts (rel.head?.any isSlash) [] (pathParts rel)).reverse [92]++
        if endsOpen rel (foldParts (rel.head?.any isSlash) [] (pathParts rel)) then [92]
        else [])).Sublist (backslashed rel) := by
    by_cases hrooted : rel.head?.any isSlash=true
    · rw [if_pos hrooted,hrooted]
      cases rel with
      | nil => simp at hrooted
      | cons c rest =>
        have hc : isSlash c=true := by simpa using hrooted
        have hopen : endsOpen (c::rest) (foldParts true [] (pathParts rest))=true →
            endsOpen rest (foldParts true [] (pathParts rest))=true := by
          unfold endsOpen
          rw [pathParts_slash hc]
          cases rest with
          | nil => simp [pathParts,foldParts]
          | cons d rest => rw [List.getLast?_cons_cons]; exact id
        rw [pathParts_slash hc,backslashed_cons_slash hc]
        refine List.Sublist.cons_cons 92 (List.Sublist.trans ?_ (body_sublist rest true))
        refine List.Sublist.append_left ?_ _
        split_ifs with h h'
        · exact .refl _
        · exact absurd (hopen h) h'
        · exact List.Sublist.append_left (List.nil_sublist _) _
        · exact .refl _
    · rw [if_neg hrooted,List.nil_append]
      exact body_sublist rel _
  let out := backslashed (path.take n)++(if (rel.head?.any isSlash)=true then [92] else [])++
    (joinAscii (foldParts (rel.head?.any isSlash) [] (pathParts rel)).reverse [92]++
      if endsOpen rel (foldParts (rel.head?.any isSlash) [] (pathParts rel)) then [92] else [])
  change (if out.isEmpty then [46] else out).Sublist (backslashed path)
  by_cases hout : out.isEmpty=true
  · rw [if_pos hout,List.singleton_sublist]
    simp only [out,List.isEmpty_iff,List.append_eq_nil_iff] at hout
    obtain ⟨⟨hroot,hrooted⟩,hjoin,_⟩ := hout
    cases path with
    | nil => exact absurd rfl hpath
    | cons c rest =>
      have hzero : n=0 := by
        cases n with
        | zero => rfl
        | succ n => exact absurd hroot (by simp [backslashed])
      subst hzero
      rw [List.drop_zero] at hrel
      subst hrel
      have hc : isSlash c=false := by
        by_contra hc
        rw [if_pos (by simpa using hc)] at hrooted
        exact absurd hrooted (by simp)
      have hflag : (c::rest).head?.any isSlash=false := by simpa using hc
      rw [hflag] at hjoin
      exact dot_mem_of_empty hc (kept_of_join hjoin)
  · rw [if_neg hout,hsplit]
    simp only [out,List.append_assoc]
    exact (List.Sublist.refl _).append hbody

theorem stripSeparators_suffix (text : Bytes) : stripSeparators text<:+text := by
  induction text with
  | nil => exact List.suffix_rfl
  | cons c rest ih =>
    rw [stripSeparators]
    split_ifs
    · exact ih.trans (List.suffix_cons _ _)
    · exact List.suffix_rfl

theorem normalizePath_sublist (path : Bytes) : (normalizePath path).Sublist (backslashed path) := by
  refine List.Sublist.trans ?_ (lexicallyNormal_sublist path)
  have hsuffix := (stripSeparators_suffix (lexicallyNormal path).reverse).sublist.reverse
  rwa [List.reverse_reverse] at hsuffix

/-- A path that is normal once keeps its length only where it stays as it is. -/
theorem normalizePath_again (path : Bytes) :
    (normalizePath (normalizePath path)).length ≤ (normalizePath path).length ∧
      ((normalizePath (normalizePath path)).length=(normalizePath path).length →
        normalizePath (normalizePath path)=normalizePath path) := by
  have hslash : 47 ∉ normalizePath path := fun h =>
    not_mem_backslashed path ((normalizePath_sublist path).subset h)
  have hsub := normalizePath_sublist (normalizePath path)
  rw [backslashed_eq hslash] at hsub
  exact ⟨hsub.length_le,hsub.eq_of_length⟩

end CompilerFabric
