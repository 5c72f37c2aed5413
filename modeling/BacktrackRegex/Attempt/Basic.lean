import BacktrackRegex.MatchState

/-! Attempts, the steps of a match. An attempt ends at an offset or fails, and changes the state; if
it fails, it puts back the registers that it wrote. -/
namespace BacktrackRegex

abbrev Attempted := Except Fault (Option Nat × MatchState)

/-- A way to visit a node at an offset. The rules for the kinds of nodes take the visits of other
nodes from it. -/
abbrev Visit := NodeId → Nat → MatchState → Attempted

namespace Attempted

@[inline]
def orUndo (a : Attempted) (undo : MatchState → Except Fault MatchState) : Attempted := do
  match ← a with
  | (some stop, s) => return (some stop, s)
  | (none, s) => return (none, ← undo s)

@[inline]
def orElse (a : Attempted) (other : MatchState → Attempted) : Attempted := do
  match ← a with
  | (some stop, s) => return (some stop, s)
  | (none, s) => other s

end Attempted

/-- The first of several visits that succeeds. Each is polled for. -/
def firstSuccess (visit : Visit) : List (NodeId × Nat) → MatchState → Attempted
  | [], s => return (none, s)
  | (id, p) :: rest, s =>
    match s.proceed with
    | (false, s) => return (none, s)
    | (true, s) => (visit id p s).orElse (firstSuccess visit rest)

def firstBranch (visit : Visit) (branches : List NodeId) (p : Nat) (s : MatchState) : Attempted :=
  firstSuccess visit (branches.map (·, p)) s

end BacktrackRegex
