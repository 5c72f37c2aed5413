import BacktrackRegex.Attempt.Basic

/-! Groups. Where one began is kept in its slot, for its end to record. -/
namespace BacktrackRegex.Attempt

def group (visit : Visit) (slot : Nat) (branches : List NodeId) (p : Nat) (s : MatchState) :
    Attempted := do
  let prior ← s.consumed slot
  let s ← s.setConsumed slot (some p)
  (firstBranch visit branches p s).orUndo (·.setConsumed slot prior)

def groupEnd (visit : Visit) (slot : Nat) (capture : Option Nat) (next : NodeId) (p : Nat)
    (s : MatchState) : Attempted := do
  match capture with
  | none => visit next p s
  | some n =>
    let priorStart ← s.groupStart n
    let priorStop ← s.groupStop n
    let s ← s.setGroup n (← s.consumed slot) (some p)
    (visit next p s).orUndo (·.setGroup n priorStart priorStop)

end BacktrackRegex.Attempt
