/-! What can go wrong with an expression and with a match, and how it is said. -/
namespace BacktrackRegex

inductive CompileError where
  | invalidBackReference (group : Nat)
  | invalidRepeatRange (min max : Nat)
  | emptyAlternation
  deriving DecidableEq, Repr

/-- Why a match was given up before it was decided. -/
inductive Halt where
  | matchStack
  | retriesInMatch
  | retriesInSearch
  | time
  | aborted
  deriving DecidableEq, Repr

inductive MatchError where
  | invalidStart (position : Nat)
  | halted (cause : Halt)
  deriving DecidableEq, Repr

namespace CompileError

def message : CompileError → String
  | invalidBackReference group => s!"invalid backref number/name: group {group}"
  | invalidRepeatRange min max =>
    s!"upper bound {max} is smaller than lower bound {min} in repeat range"
  | emptyAlternation => "alternation without branches"

end CompileError

namespace Halt

def message : Halt → String
  | matchStack => "match-stack limit over"
  | retriesInMatch => "retry-limit-in-match over"
  | retriesInSearch => "retry-limit-in-search over"
  | time => "time limit over"
  | aborted => "match aborted"

def label : Halt → String
  | matchStack => "MatchStackLimitOver"
  | retriesInMatch => "RetryLimitInMatchOver"
  | retriesInSearch => "RetryLimitInSearchOver"
  | time => "TimeLimitOver"
  | aborted => "Aborted"

end Halt

namespace MatchError

def message : MatchError → String
  | invalidStart position => s!"invalid start position {position}"
  | halted cause => cause.message

end MatchError

end BacktrackRegex
