import Boxd.Bpos.Verify

/-! The candidates that a node reports: the delegates of an epoch that are not miners, and
the delegates of the current epoch. -/

namespace Boxd.Bpos

/-- The peer ids of the miners are kept in a map. -/
def filterCandidates (delegates miners : List Delegate) : List Delegate :=
  if delegates.length < miners.length then []
  else
    -- `make` is called with this length, and the delegates are appended to the empty ones.
    let candidates : List Delegate := .replicate (delegates.length - miners.length) ⟨zeroAddressHash, ""⟩
    delegates.foldl (fun candidates delegate =>
      if delegate.peerID ∈ miners.map Delegate.peerID then candidates else candidates ++ [delegate]) candidates

/-- `Candidates`, for the two lists of the context. -/
def candidates (candidates currentEpoch : List Delegate) : List String :=
  candidates.map Delegate.peerID ++ currentEpoch.map Delegate.peerID

variable {delegates miners : List Delegate}

/-- The delegates whose peer id is not that of a miner. -/
def spared (delegates miners : List Delegate) : List Delegate :=
  delegates.filter fun delegate => delegate.peerID ∉ miners.map Delegate.peerID

theorem filterCandidates_eq (enough : miners.length ≤ delegates.length) : filterCandidates delegates miners =
      .replicate (delegates.length - miners.length) ⟨zeroAddressHash, ""⟩ ++ spared delegates miners := by
  have appended (rest before : List Delegate) : rest.foldl (fun candidates delegate =>
      if delegate.peerID ∈ miners.map Delegate.peerID then candidates else candidates ++ [delegate]) before =
        before ++ spared rest miners := by
    induction rest generalizing before with
    | nil => exact (List.append_nil before).symm
    | cons delegate rest next =>
      rw [List.foldl_cons, next, spared, spared, List.filter_cons]
      by_cases miner : delegate.peerID ∈ miners.map Delegate.peerID
      · rw [if_pos miner, if_neg (by simpa using miner)]
      · rw [if_neg miner, if_pos (by simpa using miner), List.append_assoc, List.singleton_append]
  rw [filterCandidates, if_neg (Nat.not_lt.mpr enough)]
  exact appended delegates _

/-- The filter is exact when there are as many delegates as miners, or when there are fewer
and all of them are miners. Otherwise empty delegates are added, or some are missing. -/
theorem filterCandidates_exact_iff (delegates miners : List Delegate) :
    filterCandidates delegates miners = spared delegates miners ↔
      delegates.length = miners.length ∨
        delegates.length < miners.length ∧ ∀ delegate ∈ delegates, delegate.peerID ∈ miners.map Delegate.peerID := by
  rcases Nat.lt_or_ge delegates.length miners.length with fewer | enough
  · rw [filterCandidates, if_pos fewer, eq_comm, spared, List.filter_eq_nil_iff]
    simp [fewer, fewer.ne]
  · rw [filterCandidates_eq enough, List.append_left_eq_self, List.replicate_eq_nil_iff, Nat.sub_eq_zero_iff_le]
    constructor
    · exact fun most => .inl (most.antisymm enough)
    · rintro (same | ⟨fewer, -⟩)
      · exact same.le
      · exact absurd enough (Nat.not_le.mpr fewer)

/-- A node with two delegates, one of which is the miner, reports an empty peer id. -/
theorem empty_candidate_reported : ∃ delegates miners : List Delegate, "" ∉ delegates.map Delegate.peerID ∧
      candidates (filterCandidates delegates miners) [] = ["", "b"] ∧
      (spared delegates miners).map Delegate.peerID = ["b"] :=
  ⟨[⟨zeroAddressHash, "a"⟩, ⟨zeroAddressHash, "b"⟩], [⟨zeroAddressHash, "a"⟩], by decide +kernel⟩

end Boxd.Bpos
