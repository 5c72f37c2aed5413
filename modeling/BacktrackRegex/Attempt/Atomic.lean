import BacktrackRegex.Attempt.Basic

/-! Atomic groups and lookaheads. Their branches end in a commit, so what a branch wrote stays when
it succeeds; if the match fails later on, the enclosed registers are put back as a whole. -/
namespace BacktrackRegex.Attempt

def atomic (visit : Visit) (slot : Nat) (branches : List NodeId) (inner : Frame) (next : NodeId)
    (p : Nat) (s : MatchState) : Attempted := do
  let prior ← s.consumed slot
  let saved ← s.save inner
  let s ← s.setConsumed slot (some p)
  match ← firstBranch visit branches p s with
  | (some commit, s) =>
    (visit next commit s).orUndo fun s => (s.restoreFrame inner saved).setConsumed slot prior
  | (none, s) => return (none, ← s.setConsumed slot prior)

def lookAhead (visit : Visit) (slot : Nat) (negative : Bool) (branches : List NodeId)
    (inner : Frame) (next : NodeId) (p : Nat) (s : MatchState) : Attempted := do
  let prior ← s.consumed slot
  let saved ← s.save inner
  let s ← s.setConsumed slot (some p)
  let (commit, s) ← firstBranch visit branches p s
  (if commit.isSome != negative && !s.isHalted then visit next p s else return (none, s)).orUndo
    fun s => (s.restoreFrame inner saved).setConsumed slot prior

end BacktrackRegex.Attempt
