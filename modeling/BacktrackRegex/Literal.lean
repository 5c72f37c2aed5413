import BacktrackRegex.CaseFold
import BacktrackRegex.Span
import BacktrackRegex.Text

/-! Matching a given piece of text. With case, the bytes are compared; without, the characters one
by one, whose forms may differ in length, so the end depends on the text that is matched. -/
namespace BacktrackRegex

def foldedEnd (t : Text) : List Char → Nat → Except Fault (Option Nat)
  | [], p => return some p
  | c :: cs, p => do
    match ← t.charAt p with
    | some d => if eqIgnoringCase c d then foldedEnd t cs (p + d.utf8Size) else return none
    | none => return none

def literalEnd (piece : String) (ignoreCase : Bool) (t : Text) (p : Nat) :
    Except Fault (Option Nat) := do
  let _ ← t.boundary p
  if ignoreCase then foldedEnd t piece.toList p
  else return if t.hasBytes piece p then some (p + piece.utf8ByteSize) else none

def backReferenceEnd (captured : Option Span) (ignoreCase : Bool) (t : Text) (p : Nat) :
    Except Fault (Option Nat) := do
  match captured with
  | some s => literalEnd (← t.slice s.start s.stop) ignoreCase t p
  | none => return none

end BacktrackRegex
