import BacktrackRegex.Attempt.Basic
import BacktrackRegex.Word

/-! General repetitions. The slot of a loop keeps where the present iteration began and how many
were completed. An iteration that ends where it began goes on with what follows, whatever the
bounds, so that a loop ends even if its body matches the empty text. -/
namespace BacktrackRegex

def belowMax (n : Nat) (max : Option Nat) : Bool := max.all (n < ·)

namespace Attempt

def iterate (visit : Visit) (l : Loop) (p : Nat) (s : MatchState) : Attempted :=
  match s.proceed with
  | (false, s) => return (none, s)
  | (true, s) => do
    let prior ← s.consumed l.slot
    let s ← s.setConsumed l.slot (some p)
    (visit l.body p s).orUndo (·.setConsumed l.slot prior)

/-- Another iteration or what follows the loop, in the order that the loop prefers, as far as its
bounds allow. -/
def repeatStep (visit : Visit) (l : Loop) (p : Nat) (s : MatchState) : Attempted := do
  let n ← s.count l.slot
  let again (s : MatchState) : Attempted :=
    if belowMax n l.max then iterate visit l p s else return (none, s)
  if l.greedy then
    (again s).orElse fun s =>
      if l.min ≤ n && !s.isHalted then visit l.next p s else return (none, s)
  else if l.min ≤ n then (visit l.next p s).orElse again
  else again s

def loop (visit : Visit) (l : Loop) (p : Nat) (s : MatchState) : Attempted := do
  let priorCount ← s.count l.slot
  let prior ← s.consumed l.slot
  let s ← s.setCount l.slot 0
  let s ← s.setConsumed l.slot none
  (repeatStep visit l p s).orUndo fun s => do
    (← s.setCount l.slot priorCount).setConsumed l.slot prior

def loopTail (visit : Visit) (l : Loop) (p : Nat) (s : MatchState) : Attempted := do
  if (← s.consumed l.slot) = some p then visit l.next p s
  else
    let n ← s.count l.slot
    let s ← s.setCount l.slot (Word.next n)
    (repeatStep visit l p s).orUndo (·.setCount l.slot n)

end Attempt

end BacktrackRegex
