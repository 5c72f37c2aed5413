/-! How much work a match may take: how many visits of nodes may be open at once, how many polls
one anchored attempt and a whole search may make, and how many milliseconds may pass from the first
look at the clock on. A limit of zero is no limit. -/
namespace BacktrackRegex

structure Limits where
  matchStack : Nat := 1000
  retriesInMatch : Nat := 10000000
  retriesInSearch : Nat := 0
  time : Nat := 0
  deriving DecidableEq, Repr

/-- The limits of one call, and what ends it from outside. When the clock runs out and when a flag
that aborts the call is raised is not up to the match: polls of the search stand for the moments. -/
structure MatchOptions extends Limits where
  aborted : Bool := false
  abortedFrom : Nat := 0
  timeUpFrom : Option Nat := none
  deriving DecidableEq, Repr

end BacktrackRegex
