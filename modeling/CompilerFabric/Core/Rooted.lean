import CompilerFabric.Core.Folding
import CompilerFabric.Core.Spelling

namespace CompilerFabric

/-! Root names, and what of a path is still there when it is normalized. -/

theorem rootNameEnd_le (path : Bytes) : rootNameEnd path ≤ path.length := by
  unfold rootNameEnd
  split
  · split_ifs
    · simp
    · simp
    · split
      · next q s after =>
        split_ifs
        · simp
        · have h : (s::after).findIdx isSlash ≤ (s::after).length := List.findIdx_le_length
          simp only [List.length_cons] at h ⊢
          omega
        · simp
      · split_ifs <;> simp
      · simp
  · simp

section RootName

variable {path : Bytes} {c d q s : UInt8} {rest after : Bytes}

theorem rootNameEnd_drive (h : isDriveLetter c=true) (rest : Bytes) :
    rootNameEnd (c::58::rest)=2 := by
  simp [rootNameEnd,h]

theorem isDriveLetter_slash (h : isSlash c=true) : isDriveLetter c=false := by
  simp only [isSlash,Bool.or_eq_true,beq_iff_eq] at h
  rcases h with rfl | rfl <;> decide

theorem rootNameEnd_server (hc : isSlash c=true) (hd : isSlash d=true) (hq : isSlash q=false)
    (rest : Bytes) : rootNameEnd (c::d::q::rest)=3+rest.findIdx isSlash := by
  have hletter := isDriveLetter_slash hc
  cases rest with
  | nil => simp [rootNameEnd,hletter,hc,hd,hq]
  | cons s after =>
    by_cases hs : isSlash s=true
    · have hidx : (s::after).findIdx isSlash=0 := by simp [List.findIdx_cons,hs]
      simp only [rootNameEnd,hletter,hc,hd,hq,hidx,Bool.false_and,Bool.false_eq_true,if_false,
        Bool.not_true,Bool.not_false,Bool.and_self,if_true]
      split_ifs <;> rfl
    · simp [rootNameEnd,hletter,hc,hd,hq,hs]

theorem rootNameEnd_device (hc : isSlash c=true) (hs : isSlash s=true)
    (hafter : after.head?.any isSlash=false) : rootNameEnd (c::63::63::s::after)=3 := by
  simp [rootNameEnd,isDriveLetter_slash hc,hc,hs,hafter]

/-- The kinds of root names: none, a drive, a server, the prefix of a device. -/
theorem rootNameEnd_cases (path : Bytes) : rootNameEnd path=0 ∨
    (∃ c rest,path=c::58::rest ∧ isDriveLetter c=true) ∨
    (∃ c d q rest,path=c::d::q::rest ∧ isSlash c=true ∧ isSlash d=true ∧ isSlash q=false) ∨
    ∃ c s after,path=c::63::63::s::after ∧ isSlash c=true ∧ isSlash s=true ∧
      after.head?.any isSlash=false := by
  match path with
  | [] => exact .inl rfl
  | [_] => exact .inl rfl
  | c::d::rest =>
    by_cases hdrive : (isDriveLetter c && d==58)=true
    · obtain ⟨hletter,hd⟩ := Bool.and_eq_true_iff.1 hdrive
      obtain rfl := eq_of_beq hd
      exact .inr (.inl ⟨c,rest,rfl,hletter⟩)
    by_cases hc : isSlash c=true
    swap
    · left
      simp only [rootNameEnd,hdrive,hc]
      rfl
    cases rest with
    | nil => left; simp [rootNameEnd,hdrive]
    | cons q rest =>
      by_cases hserver : isSlash d=true ∧ isSlash q=false
      · exact .inr (.inr (.inl ⟨c,d,q,rest,rfl,hc,hserver⟩))
      have hno : (isSlash d && !isSlash q)=false := by
        cases hd : isSlash d <;> cases hq : isSlash q <;> simp_all
      cases rest with
      | nil => left; simp only [rootNameEnd,hdrive,hc,hno]; rfl
      | cons s after =>
        by_cases hdevice : d=63 ∧ q=63 ∧ isSlash s=true ∧ after.head?.any isSlash=false
        · obtain ⟨rfl,rfl,hs,hafter⟩ := hdevice
          exact .inr (.inr (.inr ⟨c,s,after,rfl,hc,hs,hafter⟩))
        · left
          have hfirst : (isSlash s && !(after.head?.any isSlash) &&
              ((isSlash d && (q==63 || q==46)) || (d==63 && q==63)))=false := by
            rw [Bool.eq_false_iff]
            intro h
            simp only [Bool.and_eq_true,Bool.or_eq_true,beq_iff_eq,Bool.not_eq_true'] at h
            obtain ⟨⟨hs,hafter⟩,⟨hd,hq⟩ | ⟨hd,hq⟩⟩ := h
            · refine hserver ⟨hd,?_⟩
              rcases hq with rfl | rfl <;> rfl
            · exact hdevice ⟨hd,hq,hs,hafter⟩
          simp only [rootNameEnd,hdrive,hc,hno,hfirst]
          rfl

/-- The root name a path has with the preferred separators. -/
def rootName (path : Bytes) : Bytes := backslashed (path.take (rootNameEnd path))

theorem rootName_length (path : Bytes) : (rootName path).length=rootNameEnd path := by
  rw [rootName,backslashed,List.length_map,List.length_take,
    Nat.min_eq_left (rootNameEnd_le path)]

/-- A root name of three bytes or more ends where the path ends or at a separator. -/
theorem rootName_cases (path : Bytes) :
    rootName path=[] ∨
    (∃ c,rootName path=[c,58] ∧ isDriveLetter c=true) ∨
    (∃ q name,rootName path=92::92::q::name ∧ isSlash q=false ∧ (∀ x ∈ name,isSlash x=false) ∧
      (path.drop (rootNameEnd path)=[] ∨ (path.drop (rootNameEnd path)).head?.any isSlash=true)) ∨
    (rootName path=[92,63,63] ∧ (path.drop (rootNameEnd path)).head?.any isSlash=true) := by
  rcases rootNameEnd_cases path with h | ⟨c,rest,rfl,hc⟩ | ⟨c,d,q,rest,rfl,hc,hd,hq⟩ |
    ⟨c,s,after,rfl,hc,hs,hafter⟩
  · left
    rw [rootName,h]
    rfl
  · have h47 : c ≠ 47 := by rintro rfl; exact absurd hc (by decide)
    refine .inr (.inl ⟨c,?_,hc⟩)
    rw [rootName,rootNameEnd_drive hc]
    simp [backslashed,h47]
  · have hname : ∀ x ∈ rest.take (rest.findIdx isSlash),isSlash x=false := by
      intro x hx
      obtain ⟨i,hi,rfl⟩ := List.mem_take_iff_getElem.1 hx
      exact List.not_of_lt_findIdx (Nat.lt_of_lt_of_le hi (Nat.min_le_left _ _))
    have h47 : 47 ∉ q::rest.take (rest.findIdx isSlash) := by
      intro hmem
      rcases List.mem_cons.1 hmem with rfl | hmem
      · exact absurd hq (by decide)
      · exact absurd (hname _ hmem) (by decide)
    refine .inr (.inr (.inl ⟨q,rest.take (rest.findIdx isSlash),?_,hq,hname,?_⟩))
    · rw [rootName,rootNameEnd_server hc hd hq,Nat.add_comm,List.take_succ_cons,List.take_succ_cons,
        List.take_succ_cons,backslashed_cons_slash hc,backslashed_cons_slash hd,backslashed_eq h47]
    · rw [rootNameEnd_server hc hd hq,Nat.add_comm,List.drop_succ_cons,List.drop_succ_cons,
        List.drop_succ_cons]
      by_cases hlt : rest.findIdx isSlash<rest.length
      · right
        rw [List.head?_drop,List.getElem?_eq_getElem hlt,Option.any_some]
        exact List.findIdx_getElem
      · exact .inl (List.drop_of_length_le (by omega))
  · refine .inr (.inr (.inr ⟨?_,?_⟩))
    · rw [rootName,rootNameEnd_device hc hs hafter]
      exact backslashed_cons_slash hc _
    · rw [rootNameEnd_device hc hs hafter]
      exact hs

theorem rootName_last (h : rootName path ≠ []) :
    ∃ front c,rootName path=front++[c] ∧ isSlash c=false := by
  rcases rootName_cases path with hnil | ⟨c,hr,_⟩ | ⟨q,name,hr,hq,hname,_⟩ | ⟨hr,_⟩
  · exact absurd hnil h
  · exact ⟨[c],58,hr,rfl⟩
  · rcases List.eq_nil_or_concat' name with rfl | ⟨front,last,rfl⟩
    · exact ⟨[92,92],q,hr,hq⟩
    · exact ⟨92::92::q::front,last,hr,hname last (by simp)⟩
  · exact ⟨[92,63],63,hr,rfl⟩

end RootName

section Spelled

variable {text root path : Bytes} {rooted trailing : Bool} {parts : List Bytes}

/-- A text that normalizing can leave: its parts are tidy, and a separator ends it only if it is
short. -/
structure Spelled (text root : Bytes) (rooted : Bool) (parts : List Bytes) (trailing : Bool) : Prop where
  eq : text=spell root rooted parts trailing
  name : 47 ∉ root
  isPart : ∀ part ∈ parts,IsPart part
  tidy : Tidy rooted parts.reverse
  closes : ClosesWell parts trailing
  short : trailing → text.length ≤ 3

theorem Spelled.normal (h : Spelled text root rooted parts trailing) (hne : text ≠ [])
    (hroot : rootNameEnd text=root.length) : lexicallyNormal text=text :=
  lexicallyNormal_of_spell h.eq hroot h.name h.isPart h.tidy h.closes hne

/-- Whether the root directory is still there when the separators at the end are gone. -/
def keepsRoot (path : Bytes) (parts : List Bytes) : Bool :=
  (path.drop (rootNameEnd path)).head?.any isSlash &&
    (!parts.isEmpty || decide ((rootName path).length<3))

/-- Without its last separator a root name keeps its root directory only if it is short. -/
theorem stripped_root (hne : spell (rootName path) rooted [] false ≠ []) :
    stripped (spell (rootName path) rooted [] false)=
      spell (rootName path) (rooted && decide ((rootName path).length<3)) [] false := by
  have hspelled (rooted : Bool) : spell (rootName path) rooted [] false=
      rootName path++if rooted then [92] else [] := by simp [spell,joinAscii]
  cases rooted with
  | false =>
    have hroot : rootName path ≠ [] := by simpa [hspelled] using hne
    obtain ⟨front,c,hr,hc⟩ := rootName_last hroot
    rw [Bool.false_and,hspelled,if_neg Bool.false_ne_true,List.append_nil,hr,stripped_closed hc]
  | true =>
    rw [Bool.true_and,hspelled,hspelled,if_pos rfl]
    by_cases hshort : (rootName path).length<3
    · rw [stripped_short hshort,decide_eq_true hshort,if_pos rfl]
    · have hroot : rootName path ≠ [] := by
        rintro he
        simp [he] at hshort
      obtain ⟨front,c,hr,hc⟩ := rootName_last hroot
      have hlong : 2 ≤ front.length := by
        simp [hr] at hshort
        omega
      rw [decide_eq_false hshort,hr,stripped_open hc,if_pos hlong]
      simp

/-- Without its last separator a text of parts has the same parts, and keeps it only if it is short. -/
theorem stripped_parts (hp : ∀ part ∈ parts,IsPart part) (hne : parts ≠ []) :
    ∃ last,stripped (spell root rooted parts trailing)=spell root rooted parts last ∧
      (last → trailing) ∧ (last → (spell root rooted parts last).length ≤ 3) := by
  obtain ⟨front,c,hjoin,hc⟩ := joinAscii_last hp hne
  have htext (t : Bool) : spell root rooted parts t=
      (root++(if rooted then [92] else [])++front)++[c]++if t then [92] else [] := by
    simp [spell,hjoin]
  cases trailing with
  | false =>
    refine ⟨false,?_,id,by simp⟩
    rw [htext,if_neg Bool.false_ne_true,List.append_nil,stripped_closed hc]
  | true =>
    rw [htext,if_pos rfl,stripped_open hc]
    by_cases hlong : 2 ≤ (root++(if rooted then [92] else [])++front).length
    · refine ⟨false,?_,by simp,by simp⟩
      rw [if_pos hlong,htext,if_neg Bool.false_ne_true,List.append_nil]
    · refine ⟨true,?_,fun _ => rfl,fun _ => ?_⟩
      · rw [if_neg hlong,htext,if_pos rfl]
      · rw [htext,if_pos rfl,List.length_append,List.length_append,List.length_singleton,
          List.length_singleton]
        omega

theorem normalizePath_spelled (hpath : path ≠ []) :
    (rootName path=[] ∧ (path.drop (rootNameEnd path)).head?.any isSlash=false ∧
      normalizePath path=[46]) ∨ ∃ parts trailing,
      Spelled (normalizePath path) (rootName path) (keepsRoot path parts) parts trailing ∧
      normalizePath path ≠ [] ∧ (path.drop (rootNameEnd path)=[] → parts=[]) := by
  have hspell := lexicallyNormal_spell hpath
  dsimp only at hspell
  rw [← rootName] at hspell
  generalize hrel : path.drop (rootNameEnd path)=rel at hspell ⊢
  generalize hrooted : rel.head?.any isSlash=rooted at hspell
  generalize hkept : foldParts rooted [] (pathParts rel)=kept at hspell
  have hisPart : ∀ part ∈ kept.reverse,IsPart part := by
    intro part hp
    have hsub := foldParts_sublist rooted [] (pathParts rel)
    rw [hkept] at hsub
    exact isPart_of_mem (hsub.subset hp)
  have htidy : Tidy rooted kept.reverse.reverse := by
    rw [List.reverse_reverse,← hkept]
    exact tidy_foldParts rooted _
  have hrelnil : rel=[] → kept.reverse=[] := by
    rintro rfl
    rw [← hkept]
    rfl
  have hcloses : ClosesWell kept.reverse (endsOpen rel kept) := by
    intro hopen
    simp only [endsOpen,Bool.and_eq_true,bne_iff_ne] at hopen
    rw [List.getLast?_reverse]
    exact ⟨by simpa using hopen.1.2,hopen.2⟩
  have hname : 47 ∉ rootName path := not_mem_backslashed _
  have hnormal : normalizePath path=stripped (lexicallyNormal path) := rfl
  by_cases hout : (spell (rootName path) rooted kept.reverse (endsOpen rel kept)).isEmpty=true
  · rw [if_pos hout] at hspell
    simp only [spell,List.isEmpty_iff,List.append_eq_nil_iff] at hout
    have hopen : rooted=false := by
      cases rooted with
      | true => exact absurd hout.2.1 (by simp)
      | false => rfl
    exact .inl ⟨hout.1,hopen,by rw [hnormal,hspell]; rfl⟩
  rw [if_neg hout] at hspell
  rw [List.isEmpty_iff] at hout
  rw [hspell] at hnormal
  have hne : normalizePath path ≠ [] := by
    rw [hnormal]
    exact stripped_ne hout
  right
  by_cases hnil : kept=[]
  · subst hnil
    have hopen : endsOpen rel []=false := by simp [endsOpen]
    have hkeeps : keepsRoot path []=(rooted && decide ((rootName path).length<3)) := by
      rw [keepsRoot,hrel,hrooted]
      rfl
    have htext : normalizePath path=spell (rootName path) (keepsRoot path []) [] false := by
      rw [hopen,List.reverse_nil] at hout
      rw [hnormal,hkeeps,hopen,List.reverse_nil,stripped_root hout]
    have hcloses : ClosesWell [] false := by simp [ClosesWell]
    exact ⟨[],false,⟨htext,hname,by simp,tidy_of_plain (by simp),hcloses,by simp⟩,hne,fun _ => rfl⟩
  · have hnil' : kept.reverse ≠ [] := by simpa using hnil
    have hkeeps : keepsRoot path kept.reverse=rooted := by
      rw [keepsRoot,hrel,hrooted]
      simp [hnil]
    obtain ⟨last,htext,hlast,hshort⟩ := stripped_parts hisPart hnil'
    rw [htext] at hnormal
    refine ⟨kept.reverse,last,⟨?_,hname,hisPart,?_,?_,?_⟩,hne,hrelnil⟩
    · rw [hnormal,hkeeps]
    · rwa [hkeeps]
    · exact fun h => hcloses (hlast h)
    · rwa [hnormal]

/-- A text with a drive and no root directory. -/
def DriveRelative (text : Bytes) : Prop :=
  ∃ c rest,text=c::58::rest ∧ isDriveLetter c=true ∧ rest.head?.any isSlash=false

section Reread

variable {first : Bytes}

theorem spell_first (h : parts ≠ []) (first : Bytes) (trailing : Bool) :
    spell [] false (first::parts) trailing=spell first true parts trailing := by
  simp [spell,joinAscii_cons first h]

theorem ClosesWell.tail (h : ClosesWell (first::parts) trailing) (hne : parts ≠ []) :
    ClosesWell parts trailing := by
  intro ht
  refine ⟨hne,?_⟩
  rw [← List.getLast?_cons_of_ne_nil (x := first) hne]
  exact (h ht).2

theorem Tidy.tail (h : Tidy rooted (first::parts).reverse) (hf : first ≠ [46,46]) :
    Tidy true parts.reverse := by
  have hplain := h.plain (List.reverse_reverse _) hf
  exact tidy_of_plain fun p hp => hplain p (by simp [List.mem_reverse.1 hp])

end Reread

section Bare

variable {c q : UInt8} {rest after first : Bytes}

/-- Without a root name a text that begins with a separator has a root directory. -/
theorem Spelled.rooted_of_slash (h : Spelled text [] rooted parts trailing) (htext : text=c::rest)
    (hc : isSlash c=true) : rooted=true ∧ rest=spell [] false parts trailing := by
  have heq := h.eq
  cases rooted with
  | false =>
    have hhead := spell_head h.isPart h.closes false
    rw [← heq,htext] at hhead
    exact absurd (hhead.symm.trans hc) Bool.false_ne_true
  | true =>
    rw [htext,spell_rooted] at heq
    exact ⟨rfl,(List.cons.inj heq).2⟩

/-- The first part read as a root name, with its root directory in front of the others. -/
theorem Spelled.normal_first (h : Spelled text [] rooted (first::parts) trailing) (hne : text ≠ [])
    (hparts : parts ≠ []) (hup : first ≠ [46,46]) (hname : 47 ∉ root)
    (hroot : rootNameEnd text=root.length) (heq : text=spell root true parts trailing) :
    lexicallyNormal text=text :=
  lexicallyNormal_of_spell heq hroot hname (fun p hp => h.isPart p (List.mem_cons_of_mem _ hp))
    (h.tidy.tail hup) (h.closes.tail hparts) hne

theorem Spelled.normal_drive (h : Spelled text [] rooted parts trailing)
    (htext : text=c::58::q::after) (hc : isDriveLetter c=true) (hq : isSlash q=true) :
    lexicallyNormal text=text := by
  have heq := h.eq
  have hne : text ≠ [] := by simp [htext]
  have hletter : isSlash c=false := by
    by_contra hslash
    rw [isDriveLetter_slash (by simpa using hslash)] at hc
    cases hc
  have hcolon : isSlash 58=false := rfl
  have hc58 : IsPart [c,58] := ⟨by simp,by simp [hletter,hcolon]⟩
  have hclosed : rooted=false := by
    cases rooted with
    | false => rfl
    | true =>
      rw [htext,spell_rooted] at heq
      rw [(List.cons.inj heq).1] at hc
      exact absurd hc (by decide)
  subst hclosed
  have hparts : pathParts (spell [] false parts trailing)=parts := pathParts_spell h.isPart
  have hfirst : parts=[c,58]::pathParts after := by
    rw [← hparts,← heq,htext]
    exact (pathParts_append hq [c,58] after).trans (congrArg (·++_) (pathParts_part hc58))
  have hroot : rootNameEnd text=[c,58].length := by
    rw [htext,rootNameEnd_drive hc]
    rfl
  have hname : 47 ∉ [c,58] := fun hm => absurd (hc58.2 47 hm) (by decide)
  generalize pathParts after=tail at hfirst
  subst hfirst
  by_cases htail : tail=[]
  · subst htail
    cases trailing with
    | true =>
      have heq : text=spell [c,58] true [] false := heq
      exact lexicallyNormal_of_spell heq hroot hname nofun (tidy_of_plain nofun) nofun hne
    | false =>
      rw [htext] at heq
      exact absurd heq (by simp [spell,joinAscii])
  · rw [spell_first htail] at heq
    exact h.normal_first hne htail (by simp) hname hroot heq

theorem Spelled.normal_device (h : Spelled text [] rooted parts trailing)
    (htext : text=c::63::63::q::after) (hc : isSlash c=true) (hq : isSlash q=true)
    (hafter : after.head?.any isSlash=false) : lexicallyNormal text=text := by
  have heq := h.eq
  have hne : text ≠ [] := by simp [htext]
  obtain ⟨rfl,hrest⟩ := h.rooted_of_slash htext hc
  have hparts : pathParts (spell [] false parts trailing)=parts := pathParts_spell h.isPart
  have hfirst : parts=[63,63]::pathParts after := by
    rw [← hparts,← hrest]
    exact (pathParts_append hq [63,63] after).trans
      (congrArg (·++_) (pathParts_part ⟨by simp,by simp [isSlash]⟩))
  have hroot : rootNameEnd text=[92,63,63].length := by
    rw [htext,rootNameEnd_device hc hq hafter]
    rfl
  generalize pathParts after=tail at hfirst
  subst hfirst
  by_cases htail : tail=[]
  · subst htail
    cases trailing with
    | true =>
      have hlen := h.short rfl
      rw [heq] at hlen
      exact absurd hlen (by decide)
    | false => exact absurd hrest (by simp [spell,joinAscii])
  · rw [spell_rooted,spell_first htail] at heq
    have heq : text=spell [92,63,63] true tail trailing := heq
    exact h.normal_first hne htail (by decide) (by decide) hroot heq

/-- Parts that are spelled without a root name may be read with one: as a device behind a root
directory, as a drive without it. -/
theorem Spelled.normal_bare (h : Spelled text [] rooted parts trailing) (hne : text ≠ [])
    (hdrive : ¬DriveRelative text) : lexicallyNormal text=text := by
  rcases rootNameEnd_cases text with h0 | ⟨c,rest,htext,hc⟩ | ⟨c,d,q,rest,htext,hc,hd,_⟩ |
    ⟨c,s,after,htext,hc,hs,hafter⟩
  · exact h.normal hne h0
  · cases rest with
    | nil => exact absurd ⟨c,[],htext,hc,rfl⟩ hdrive
    | cons s after =>
      have hs : isSlash s=true := by
        by_contra hs
        exact hdrive ⟨c,s::after,htext,hc,by simpa using hs⟩
      exact h.normal_drive htext hc hs
  · have hhead := spell_head h.isPart h.closes false
    obtain ⟨_,hrest⟩ := h.rooted_of_slash htext hc
    rw [← hrest] at hhead
    exact absurd (hhead.symm.trans hd) Bool.false_ne_true
  · exact h.normal_device htext hc hs hafter

end Bare

/-- Normalizing twice is normalizing once, but for a path that turns out to name a drive without
its root directory. -/
theorem normalizePath_stable (hdrive : ¬DriveRelative (normalizePath path)) :
    normalizePath (normalizePath path)=normalizePath path := by
  by_cases hpath : path=[]
  · subst hpath
    rfl
  rcases normalizePath_spelled hpath with ⟨_,_,hdot⟩ | ⟨parts,trailing,hs,hne,hrel⟩
  · rw [hdot]
    rfl
  refine normalizePath_of_normal ?_
  rcases rootName_cases path with hr | ⟨c,hr,hc⟩ | ⟨q,name,hr,hq,hname,hend⟩ | ⟨hr,hslash⟩
  · rw [hr] at hs
    exact hs.normal_bare hne hdrive
  · refine hs.normal hne ?_
    rw [hs.eq,hr]
    exact rootNameEnd_drive hc _
  · refine hs.normal hne ?_
    rw [hs.eq,hr]
    have hnone : ¬name.findIdx isSlash<name.length := by
      rw [List.findIdx_lt_length]
      rintro ⟨x,hx,hslash⟩
      rw [hname x hx] at hslash
      cases hslash
    have htail : (spell [] (keepsRoot path parts) parts trailing).findIdx isSlash=0 := by
      cases hkeeps : keepsRoot path parts with
      | true => rfl
      | false =>
        have hnil : parts=[] := by
          rcases hend with hend | hend
          · exact hrel hend
          · by_contra hnil
            rw [keepsRoot,hend] at hkeeps
            simp [hnil] at hkeeps
        have hclosed : trailing=false := Bool.eq_false_iff.2 fun ht => (hs.closes ht).1 hnil
        rw [hnil,hclosed]
        rfl
    have hspelled : spell (92::92::q::name) (keepsRoot path parts) parts trailing=
        92::92::q::(name++spell [] (keepsRoot path parts) parts trailing) := rfl
    rw [hspelled,rootNameEnd_server rfl rfl hq,List.findIdx_append,if_neg hnone,htail]
    simp only [List.length_cons]
    omega
  · have hkeeps : keepsRoot path parts= !parts.isEmpty := by
      rw [keepsRoot,hr,hslash]
      simp
    rw [hkeeps,hr] at hs
    by_cases hnil : parts=[]
    · subst hnil
      have htext : normalizePath path=[92,63,63] := by
        have heq := hs.eq
        have hclosed : trailing=false := Bool.eq_false_iff.2 fun ht => (hs.closes ht).1 rfl
        rw [heq,hclosed]
        rfl
      rw [htext]
      rfl
    · refine hs.normal hne ?_
      have hshow : (!parts.isEmpty)=true := by simpa using hnil
      rw [hs.eq,hshow]
      exact rootNameEnd_device rfl rfl (spell_head hs.isPart hs.closes false)

/-- A path keeps its drive, and the root directory behind it. -/
theorem normalizePath_drive {c : UInt8} {rest : Bytes} (hc : isDriveLetter c=true) :
    ∃ r,normalizePath (c::58::rest)=c::58::r ∧ r.head?.any isSlash=rest.head?.any isSlash := by
  have h47 : c ≠ 47 := by rintro rfl; exact absurd hc (by decide)
  have hroot : rootName (c::58::rest)=[c,58] := by
    rw [rootName,rootNameEnd_drive hc]
    simp [backslashed,h47]
  have hkeeps (parts : List Bytes) : keepsRoot (c::58::rest) parts=rest.head?.any isSlash := by
    rw [keepsRoot,hroot,rootNameEnd_drive hc]
    simp
  rcases normalizePath_spelled (List.cons_ne_nil c (58::rest)) with ⟨hnil,_⟩ | ⟨parts,trailing,hs,_⟩
  · rw [hroot] at hnil
    cases hnil
  · rw [hroot,hkeeps] at hs
    exact ⟨_,hs.eq,spell_head hs.isPart hs.closes _⟩

/-- A path that begins with a separator goes on doing so. -/
theorem normalizePath_slash {c : UInt8} {rest : Bytes} (hc : isSlash c=true) :
    ∃ r,normalizePath (c::rest)=92::r := by
  have hlen := rootName_length (c::rest)
  cases hn : rootNameEnd (c::rest) with
  | zero =>
    rw [hn,List.length_eq_zero_iff] at hlen
    have hrel : ((c::rest).drop (rootNameEnd (c::rest))).head?.any isSlash=true := by
      rw [hn]
      exact hc
    rcases normalizePath_spelled (List.cons_ne_nil c rest) with ⟨_,hopen,_⟩ | ⟨parts,trailing,hs,_⟩
    · rw [hrel] at hopen
      cases hopen
    · have hkeeps : keepsRoot (c::rest) parts=true := by
        rw [keepsRoot,hrel,hlen]
        simp
      rw [hlen,hkeeps] at hs
      exact ⟨_,hs.eq⟩
  | succ n =>
    have hroot : rootName (c::rest)=92::backslashed (rest.take n) := by
      rw [rootName,hn,List.take_succ_cons,backslashed_cons_slash hc]
    rcases normalizePath_spelled (List.cons_ne_nil c rest) with ⟨hnil,_⟩ | ⟨parts,trailing,hs,_⟩
    · rw [hroot] at hnil
      cases hnil
    · rw [hroot] at hs
      exact ⟨_,hs.eq⟩

end Spelled

section Key

variable {path text : Bytes}

/-- How the bytes of a key are folded. -/
def foldByte (c : UInt8) : UInt8 := if c==47 then 92 else asciiLower c

theorem canonicalPathKey_eq (path : Bytes) : canonicalPathKey path=(normalizePath path).map foldByte := rfl

theorem isSlash_fold : ∀ c,isSlash (foldByte c)=isSlash c := forall_byte (by decide +kernel)

theorem isDriveLetter_fold : ∀ c,isDriveLetter (foldByte c)=isDriveLetter c :=
  forall_byte (by decide +kernel)

/-- The bytes that tell the root names apart are not folded. -/
theorem beq_fold {mark : UInt8} (hmark : mark ∈ [46,58,63]) : ∀ c,(foldByte c==mark)=(c==mark) := by
  simp only [List.mem_cons,List.not_mem_nil,or_false] at hmark
  rcases hmark with rfl | rfl | rfl <;> exact forall_byte (by decide +kernel)

theorem any_fold (first : Option UInt8) : (first.map foldByte).any isSlash=first.any isSlash := by
  cases first with
  | none => rfl
  | some c => exact isSlash_fold c

theorem rootNameEnd_fold (text : Bytes) : rootNameEnd (text.map foldByte)=rootNameEnd text := by
  have hidx (text : Bytes) : (text.map foldByte).findIdx isSlash=text.findIdx isSlash := by
    rw [List.findIdx_map]
    exact congrArg (text.findIdx ·) (funext isSlash_fold)
  match text with
  | [] => rfl
  | [_] => rfl
  | [c,d] => simp [rootNameEnd,isDriveLetter_fold,isSlash_fold,beq_fold]
  | [c,d,q] => simp [rootNameEnd,isDriveLetter_fold,isSlash_fold,beq_fold]
  | c::d::q::s::after =>
    have hmap := hidx (s::after)
    rw [List.map_cons] at hmap
    simp [rootNameEnd,isDriveLetter_fold,isSlash_fold,beq_fold,any_fold,hmap]

end Key

end CompilerFabric
