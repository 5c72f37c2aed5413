import BacktrackRegex.Error
import BacktrackRegex.Limits

/-! What is left of the limits. Each visit of a node is counted while it is open, each choice is
polled for, and a poll counts as a retry of the attempt and of the search. Every 512th poll of a
search looks at the clock and the flag. The first limit to trip halts the match: from then on
nothing may be entered or polled for. -/
namespace BacktrackRegex

structure Budget where
  options : MatchOptions
  depth : Nat := 0
  retriesInMatch : Nat := 0
  retriesInSearch : Nat := 0
  halt : Option Halt := none
  deriving DecidableEq, Repr

def MatchOptions.checkInterval : Nat := 512

/-- What ends the match from outside at the `n`-th poll of its search. -/
@[inline]
def MatchOptions.interrupt? (o : MatchOptions) (n : Nat) : Option Halt :=
  if n % checkInterval != 0 then none
  else if o.time != 0 && o.timeUpFrom.any (· ≤ n) then some .time
  else if o.aborted && o.abortedFrom ≤ n then some .aborted
  else none

namespace Budget

@[inline]
def exceeds (n limit : Nat) : Bool := limit != 0 && limit < n

def clear (b : Budget) : Budget := { options := b.options }

def clearAttempt (b : Budget) : Budget := { b with depth := 0, retriesInMatch := 0 }

@[inline]
def isHalted (b : Budget) : Bool := b.halt.isSome

@[inline]
def enter (b : Budget) : Bool × Budget :=
  if b.isHalted then (false, b)
  else if exceeds (b.depth + 1) b.options.matchStack then
    (false, { b with halt := some .matchStack })
  else (true, { b with depth := b.depth + 1 })

@[inline]
def leave (b : Budget) : Budget := { b with depth := b.depth - 1 }

@[inline]
def overdrawn? (b : Budget) : Option Halt :=
  if exceeds b.retriesInMatch b.options.retriesInMatch then some .retriesInMatch
  else if exceeds b.retriesInSearch b.options.retriesInSearch then some .retriesInSearch
  else b.options.interrupt? b.retriesInSearch

@[inline]
def poll (b : Budget) : Bool × Budget :=
  if b.isHalted then (false, b)
  else
    let b := { b with
      retriesInMatch := b.retriesInMatch + 1, retriesInSearch := b.retriesInSearch + 1 }
    match b.overdrawn? with
    | some cause => (false, { b with halt := some cause })
    | none => (true, b)

end Budget

end BacktrackRegex
