import BacktrackRegex.MatchState
import BacktrackRegex.Text

/-! What a match found: the pieces of the text that the whole expression and its capture groups
matched. -/
namespace BacktrackRegex

structure Match where
  text : Text
  span : Span
  deriving DecidableEq

namespace Match

def start (m : Match) : Nat := m.span.start

def stop (m : Match) : Nat := m.span.stop

def piece (m : Match) : Except Fault String := m.text.slice m.start m.stop

def size (m : Match) : Nat := m.span.size

def isEmpty (m : Match) : Bool := m.span.isEmpty

end Match

/-- What each capture group matched, if it took part; group 0 is the whole match. -/
structure Captures where
  text : Text
  spans : Array (Option Span)
  deriving DecidableEq

namespace Captures

def ofState (t : Text) (s : MatchState) : Captures where
  text := t
  spans := s.regs.starts.zipWith (fun start stop => return ⟨← start, ← stop⟩) s.regs.ends

def get? (c : Captures) (n : Nat) : Option Match :=
  c.spans[n]?.join.map (⟨c.text, ·⟩)

def span (c : Captures) : Span := (c.get? 0).elim ⟨0, 0⟩ (·.span)

def start (c : Captures) : Nat := c.span.start

def stop (c : Captures) : Nat := c.span.stop

def size (c : Captures) : Nat := c.spans.size

def isEmpty (c : Captures) : Bool := c.spans.isEmpty

def toList (c : Captures) : List (Option Match) := (List.range c.size).map c.get?

end Captures

inductive Outcome where
  | matched (captures : Captures)
  | noMatch
  deriving DecidableEq

namespace Outcome

def captures? : Outcome → Option Captures
  | matched c => some c
  | noMatch => none

def isMatch (o : Outcome) : Bool := o.captures?.isSome

def match? (o : Outcome) : Option Match := o.captures?.bind (·.get? 0)

end Outcome

end BacktrackRegex
