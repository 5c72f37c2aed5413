import BacktrackRegex.Attempt.Basic
import BacktrackRegex.Text

/-! Repetitions of a single leaf, in place. A leaf has one end at each offset, so the iterations
form a chain of offsets and what follows is tried from them in turn: from the last one back if
greedy, from the first one on if reluctant. -/
namespace BacktrackRegex.Attempt

abbrev LeafEnd := Nat → Except Fault (Option Nat)

/-- How many iterations from `p` are worth trying: each consumes a byte, but the one that would pass
the end of the text is tried as well. -/
def iterationsWithin (t : Text) (p : Nat) (max : Option Nat) : Nat :=
  let byText := t.size - p + 1
  max.elim byText (Nat.min byText)

def leafEnds (leaf : LeafEnd) : Nat → Nat → Except Fault (List Nat)
  | 0, p => return [p]
  | n + 1, p => do
    match ← leaf p with
    | some stop => if p < stop then return p :: (← leafEnds leaf n stop) else return [p]
    | none => return [p]

def leafLoopGreedy (visit : Visit) (t : Text) (leaf : LeafEnd) (min : Nat) (max : Option Nat)
    (next : NodeId) (p : Nat) (s : MatchState) : Attempted := do
  let ends ← leafEnds leaf (iterationsWithin t p max) p
  firstSuccess visit ((ends.drop min).reverse.map (next, ·)) s

/-- What follows, tried before each further iteration, at most `n`, once `required` more are done.
-/
def leafLoopReluctant (visit : Visit) (leaf : LeafEnd) (next : NodeId) :
    Nat → Nat → Nat → MatchState → Attempted
  | n, required, p, s =>
    match s.proceed with
    | (false, s) => return (none, s)
    | (true, s) =>
      (if required = 0 then visit next p s else return (none, s)).orElse fun s => do
        match n with
        | 0 => return (none, s)
        | n + 1 =>
          match ← leaf p with
          | some stop =>
            if p < stop then leafLoopReluctant visit leaf next n (required - 1) stop s
            else return (none, s)
          | none => return (none, s)

end BacktrackRegex.Attempt
