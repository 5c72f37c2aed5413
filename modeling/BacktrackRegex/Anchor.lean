import BacktrackRegex.CharClass
import BacktrackRegex.Text

/-! Conditions on an offset that consume nothing. The start position is where the search began, and
the end with an optional newline is the end of the text or the line feed that ends it. -/
namespace BacktrackRegex

inductive Anchor where
  | startText
  | endText
  | endTextOptionalNewline
  | startLine
  | endLine
  | wordBoundary
  | notWordBoundary
  | startPosition
  deriving DecidableEq, Repr

def isWordBoundary (t : Text) (p : Nat) : Except Fault Bool := do
  let before ← t.charBefore p
  let after ← t.charAt p
  return before.any isWordChar != after.any isWordChar

namespace Anchor

def lineFeed : UInt8 := 10

/-- Whether the condition holds at `p`, for a search that began at `origin`. The line conditions
read single bytes, so they are defined inside a character too. -/
def holdsAt (a : Anchor) (t : Text) (p origin : Nat) : Except Fault Bool :=
  match a with
  | startText => return p == 0
  | endText => return p == t.size
  | endTextOptionalNewline =>
    if p = t.size then return true
    else if Word.next p = t.size then return (← t.byteAt p) == lineFeed
    else return false
  | startLine => if p = 0 then return true else return (← t.byteAt (p - 1)) == lineFeed
  | endLine => if p = t.size then return true else return (← t.byteAt p) == lineFeed
  | wordBoundary => isWordBoundary t p
  | notWordBoundary => return !(← isWordBoundary t p)
  | startPosition => return p == origin

end Anchor

end BacktrackRegex
