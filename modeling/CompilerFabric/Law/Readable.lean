import CompilerFabric.Runtime.System

namespace CompilerFabric

open Base

namespace Runtime

/-- What was encoded for a session decodes to what went in, and a replay that comes to it takes
it over whatever the journal held for the session before. -/
structure Readable (rt : Runtime) (session : CompilerSession) : Prop where
  decodes : decodeSessionBundle (rt.encodeSessionBundle session)=.ok (rt.bundleOf session)
  newest : ∀ records (record : JournalRecord),record.kind.carriesSession →
    record.payload=rt.encodeSessionBundle session →
    replay (records++[record])=
      ((replay records).1.insert session.id.value (rt.bundleOf session),(replay records).2)

theorem replay_newest {rt : Runtime} {session : CompilerSession}
    (h : decodeSessionBundle (rt.encodeSessionBundle session)=.ok (rt.bundleOf session))
    (records : List JournalRecord) {record : JournalRecord} (hk : record.kind.carriesSession)
    (hp : record.payload=rt.encodeSessionBundle session) :
    replay (records++[record])=
      ((replay records).1.insert session.id.value (rt.bundleOf session),(replay records).2) := by
  have hr : replay (records++[record])=replayRecord (replay records) record := by
    simp [replay,List.foldl_append]
  rw [hr,replayRecord,hp,h]
  simp only [hk,Bool.not_true,Bool.false_eq_true,if_false]
  rfl

/-- The detail of a failure is read back up to a bound that its writer does not keep. -/
theorem failureDetail_le_of_good {b : SessionBundle} (h : bundleFormat.good b) :
    b.session.failureDetail.length ≤ kMaxStringBytes := by
  have hs : sessionFormat.good b.session := h.1.1
  exact hs.2.2.2.2.2.2.2.2.2.2.2.2.2.2.2.2.2.2.2.2.2.2.2.2.2.2.2.2.2.2.2.1

end Runtime

namespace Sample

/-- A session retired for a reason one byte longer than its reader takes. -/
def verbose : System :=
  created.apply (.call (.retireSession ⟨1⟩ (List.replicate (kMaxStringBytes+1) 0)) world)

end Sample

namespace Runtime

end Runtime

end CompilerFabric
