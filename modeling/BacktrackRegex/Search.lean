import BacktrackRegex.Attempt
import BacktrackRegex.Lowering
import BacktrackRegex.Outcome

/-! Matching at one offset, and searching for the first offset with a match. A search tries one
boundary after the other; where the expression shows the byte that every match begins with, it goes
from one such byte to the next. -/
namespace BacktrackRegex

abbrev Verdict := Except MatchError Outcome

namespace Graph

def checkStart (t : Text) (start : Nat) : Except MatchError Unit :=
  if t.size < start ∨ t.isBoundary start = false then throw (.invalidStart start) else return ()

/-- One attempt at `p` in a cleared state. A limit that tripped is taken out of the state and
reported. -/
def attemptAt (g : Graph) (t : Text) (p : Nat) (s : MatchState) :
    Except Fault (Verdict × MatchState) := do
  let (stop, s) ← g.attempt t g.entry p s
  match s.takeHalt, stop with
  | (some cause, s), _ => return (.error (.halted cause), s)
  | (none, s), none => return (.ok .noMatch, s)
  | (none, s), some stop =>
    let s ← s.setGroup 0 (some p) (some stop)
    return (.ok (.matched (.ofState t s)), s)

def matchAt (g : Graph) (t : Text) (start : Nat) (s : MatchState) :
    Except Fault (Verdict × MatchState) :=
  match checkStart t start with
  | .error e => return (.error e, s)
  | .ok () => g.attemptAt t start (s.reset start)

def run (g : Graph) (t : Text) (start : Nat) (options : MatchOptions) : Except Fault Verdict := do
  return (← g.matchAt t start (.ofGraph g options)).1

/-- The first offset from `p` on at which a match can begin. -/
def candidate? (g : Graph) (t : Text) (p : Nat) : Option Nat :=
  match g.leadByte with
  | some b => t.findByte b p
  | none => some p

theorem le_of_candidate? {g : Graph} {t : Text} {p q : Nat} (h : g.candidate? t p = some q) :
    p ≤ q := by
  unfold candidate? at h
  split at h
  · exact Text.le_of_findByte h
  · exact Nat.le_of_eq (Option.some.inj h)

def searchFrom (g : Graph) (t : Text) (origin p : Nat) (s : MatchState) :
    Except Fault (Verdict × MatchState) :=
  match _hq : g.candidate? t p with
  | none => return (.ok .noMatch, s)
  | some q => do
    match ← g.attemptAt t q (s.resetAttempt origin) with
    | (.ok .noMatch, s) =>
      match _hc : t.charAt q with
      | .ok (some c) => g.searchFrom t origin (q + c.utf8Size) s
      | .ok none => return (.ok .noMatch, s)
      | .error f => throw f
    | (verdict, s) => return (verdict, s)
termination_by t.size - p
decreasing_by
  have := le_of_candidate? _hq
  have := Text.lt_size_of_charAt _hc
  have := c.utf8Size_pos
  omega

def searchWith (g : Graph) (t : Text) (start : Nat) (s : MatchState) :
    Except Fault (Verdict × MatchState) :=
  match checkStart t start with
  | .error e => return (.error e, s)
  | .ok () => g.searchFrom t start start s

def search (g : Graph) (t : Text) (start : Nat) (options : MatchOptions) :
    Except Fault Verdict := do
  return (← g.searchWith t start (.ofGraph g options)).1

/-- Whether there is a match anywhere. A match that was given up is none. -/
def isMatch (g : Graph) (t : Text) (options : MatchOptions) : Except Fault Bool := do
  return match ← g.search t 0 options with
  | .ok outcome => outcome.isMatch
  | .error _ => false

end Graph

end BacktrackRegex
