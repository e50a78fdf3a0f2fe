import CompilerFabric.Runtime.Workspace
import CompilerFabric.Runtime.System

namespace CompilerFabric

open Base Base.Action

section Paths

variable {p q r : Bytes}

theorem pathIsWithin_iff : pathIsWithin p q=true ↔ canonicalPathKey p ≠ [] ∧
    canonicalPathKey q ≠ [] ∧ (canonicalPathKey p=canonicalPathKey q ∨
      ∃ rest,rest ≠ [] ∧ canonicalPathKey p=(if (canonicalPathKey q).getLast?=some 92 then
        canonicalPathKey q else canonicalPathKey q++[92])++rest) := by
  unfold pathIsWithin
  dsimp only
  generalize canonicalPathKey p=child
  generalize canonicalPathKey q=parent
  generalize hd : (if parent.getLast?=some 92 then parent else parent++[92])=dir
  cases child with
  | nil => simp
  | cons c child =>
    cases parent with
    | nil => simp
    | cons d parent =>
      have hstarts : (decide (dir.length<(c::child).length) && dir.isPrefixOf (c::child))=true ↔
          ∃ rest,rest ≠ [] ∧ c::child=dir++rest := by
        rw [Bool.and_eq_true,decide_eq_true_eq,List.isPrefixOf_iff_prefix]
        constructor
        · rintro ⟨hlt,rest,hrest⟩
          refine ⟨rest,?_,hrest.symm⟩
          rintro rfl
          rw [← hrest,List.append_nil] at hlt
          exact Nat.lt_irrefl _ hlt
        · rintro ⟨rest,hne,hrest⟩
          refine ⟨?_,rest,hrest.symm⟩
          rw [hrest,List.length_append]
          have := List.length_pos_iff.2 hne
          omega
      by_cases he : c::child=d::parent
      · simp [he]
      · simp only [List.isEmpty_cons,Bool.or_self,Bool.false_eq_true,if_false,he,false_or,hstarts]
        simp

/-- A path within one that lies within a third lies within the third. -/
theorem pathIsWithin_trans (hpq : pathIsWithin p q=true) (hqr : pathIsWithin q r=true) :
    pathIsWithin p r=true := by
  rw [pathIsWithin_iff] at *
  obtain ⟨hp,hq,h⟩ := hpq
  obtain ⟨_,hr,h'⟩ := hqr
  refine ⟨hp,hr,?_⟩
  generalize canonicalPathKey r=root at *
  generalize canonicalPathKey q=mid at *
  generalize canonicalPathKey p=leaf at *
  rcases h with rfl | ⟨rest,hne,hrest⟩
  · exact h'
  · rcases h' with rfl | ⟨rest',_,hrest'⟩
    · exact .inr ⟨rest,hne,hrest⟩
    · right
      -- the separator after the middle path is part of what follows the outer one
      refine ⟨rest'++(if mid.getLast?=some 92 then [] else [92])++rest,?_,?_⟩
      · intro hnil
        exact hne (List.append_eq_nil_iff.1 hnil).2
      · generalize (if root.getLast?=some 92 then root else root++[92])=dir at hrest' ⊢
        by_cases hm : mid.getLast?=some 92
        · rw [if_pos hm] at hrest ⊢
          rw [hrest,List.append_nil,← List.append_assoc,← hrest']
        · rw [if_neg hm] at hrest ⊢
          rw [hrest,List.append_assoc rest',← List.append_assoc dir,← hrest',List.append_assoc]

end Paths

namespace WorkspaceManager

/-- Nothing outside the directory of the session has changed on disk. -/
def Spares (before after : WorkspaceManager) (sid : CompilerSessionId) : Prop :=
  ∀ path,pathIsWithin path (before.sessionDirectory sid)=false →
    after.files path=before.files path

/-- Nothing outside the directory of the session is left in a live workspace. -/
def OnlyLive (m : WorkspaceManager) (sid : CompilerSessionId) : Prop :=
  ∀ root ∈ m.live,pathIsWithin root m.baseDirectory → ∀ path,pathIsWithin path root →
    pathIsWithin path (m.sessionDirectory sid)=false → m.files path=none

variable {m : WorkspaceManager} {sid : CompilerSessionId}

/-- `cleanup_all` leaves exactly what lies in no live root. -/
theorem cleanupAll_files (path : Bytes) : m.cleanupAll.files path=
    if m.live.any fun root => pathIsWithin root m.baseDirectory && pathIsWithin path root then none
    else m.files path := by
  show (m.live.foldl m.cleanupRoot m.files) path=_
  generalize m.live=roots
  generalize m.files=files
  induction roots generalizing files with
  | nil => rfl
  | cons root roots ih =>
    rw [List.foldl_cons,ih,List.any_cons]
    have hone : m.cleanupRoot files root path=
        if pathIsWithin root m.baseDirectory && pathIsWithin path root then none
        else files path := by
      unfold cleanupRoot
      cases pathIsWithin root m.baseDirectory <;> rfl
    rw [hone]
    cases (roots.any fun root => pathIsWithin root m.baseDirectory && pathIsWithin path root) <;>
      simp

theorem spares_cleanupAll_iff : m.Spares m.cleanupAll sid ↔ m.OnlyLive sid := by
  constructor
  · intro h root hroot hbase path hpath hout
    have hkept := h path hout
    rw [cleanupAll_files,if_pos] at hkept
    · exact hkept.symm
    · rw [List.any_eq_true]
      exact ⟨root,hroot,by simp [hbase,hpath]⟩
  · intro h path hout
    rw [cleanupAll_files]
    split_ifs with hany
    · obtain ⟨root,hroot,hin⟩ := List.any_eq_true.1 hany
      rw [Bool.and_eq_true] at hin
      exact (h root hroot hin.1 path hin.2 hout).symm
    · rfl

end WorkspaceManager

namespace Site

variable {w : World} {sid : CompilerSessionId} {reason : Bytes}

/-- A retirement that is carried out spares the other sessions exactly when nothing outside the
directory of the session is left in a live workspace; one that is refused removes nothing. -/
theorem retireSession_spares_iff (site : Site) :
    site.workspaces.Spares (site.retireSession w sid reason).2.workspaces sid ↔
      ((Runtime.retireSession w sid reason site.rt).1=.ok () → site.workspaces.OnlyLive sid) := by
  unfold retireSession
  cases h : Runtime.retireSession w sid reason site.rt with
  | mk result rt =>
    cases result with
    | error e =>
      simp only [reduceCtorEq,false_imp_iff,iff_true]
      intro path _
      rfl
    | ok u =>
      simp only [true_imp_iff]
      exact WorkspaceManager.spares_cleanupAll_iff

end Site

namespace Sample

/-- Two sessions, each with a phase in flight in its own workspace. -/
def desk : Site := ⟨(created.apply (.call (.createSession request) world)).rt,
  { baseDirectory := ascii "work" }⟩

def reserved (site : Site) (sid : CompilerSessionId) (pid : CompilerPhaseId) : Site :=
  (site.reserve {} world sid pid false).2

def shared : Site := reserved (reserved desk ⟨1⟩ ⟨1⟩) ⟨2⟩ ⟨2⟩

end Sample

namespace Site

/-- The session that goes on loses the workspace of its phase in flight. -/
theorem retirement_removes_other_workspace :
    (Sample.shared.retireSession Sample.world ⟨1⟩ []).1=.ok () ∧
    ¬Sample.shared.workspaces.Spares
      (Sample.shared.retireSession Sample.world ⟨1⟩ []).2.workspaces ⟨1⟩ := by
  have h : (Sample.shared.retireSession Sample.world ⟨1⟩ []).1=.ok () ∧
      (Sample.shared.workspaces.live.any fun root =>
        !pathIsWithin root (Sample.shared.workspaces.sessionDirectory ⟨1⟩) &&
        decide ((Sample.shared.retireSession Sample.world ⟨1⟩ []).2.workspaces.files root ≠
          Sample.shared.workspaces.files root))=true := by decide +kernel
  generalize Sample.shared=site at h ⊢
  refine ⟨h.1,fun hspares => ?_⟩
  obtain ⟨root,_,hroot⟩ := List.any_eq_true.1 h.2
  obtain ⟨hout,hne⟩ := Bool.and_eq_true_iff.1 hroot
  exact of_decide_eq_true hne (hspares root (by simpa using hout))

/-- Alone with workspaces, a session removes its own. -/
theorem retirement_spares_of_alone : (Sample.reserved Sample.desk ⟨1⟩ ⟨1⟩).workspaces.live ≠ [] ∧
    (Sample.reserved Sample.desk ⟨1⟩ ⟨1⟩).workspaces.Spares ((Sample.reserved Sample.desk ⟨1⟩
      ⟨1⟩).retireSession Sample.world ⟨1⟩ []).2.workspaces ⟨1⟩ := by
  have h : (Sample.reserved Sample.desk ⟨1⟩ ⟨1⟩).workspaces.live ≠ [] ∧
      ((Sample.reserved Sample.desk ⟨1⟩ ⟨1⟩).workspaces.live.all fun root =>
        pathIsWithin root ((Sample.reserved Sample.desk ⟨1⟩
          ⟨1⟩).workspaces.sessionDirectory ⟨1⟩))=true := by decide +kernel
  generalize Sample.reserved Sample.desk ⟨1⟩ ⟨1⟩=site at h ⊢
  refine ⟨h.1,(retireSession_spares_iff site).2 fun _ root hroot _ path hpath hout => ?_⟩
  have hin := pathIsWithin_trans hpath (List.all_eq_true.1 h.2 root hroot)
  rw [hin] at hout
  cases hout

end Site

end CompilerFabric
