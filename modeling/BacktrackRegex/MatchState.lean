import BacktrackRegex.Budget
import BacktrackRegex.Registers

/-! The state of a match: its registers, which failing visits restore, and its budget, which they do
not. -/
namespace BacktrackRegex

structure MatchState where
  regs : Registers
  budget : Budget
  deriving DecidableEq, Repr

namespace MatchState

def ofGraph (g : Graph) (options : MatchOptions) : MatchState :=
  ⟨.unset g.slots g.captures 0, { options }⟩

def reset (s : MatchState) (origin : Nat) : MatchState :=
  ⟨s.regs.clear origin, s.budget.clear⟩

def resetAttempt (s : MatchState) (origin : Nat) : MatchState :=
  ⟨s.regs.clear origin, s.budget.clearAttempt⟩

def origin (s : MatchState) : Nat := s.regs.origin

@[inline]
def consumed (s : MatchState) (slot : Nat) : Except Fault (Option Nat) :=
  Registers.read s.regs.consumed slot

@[inline]
def count (s : MatchState) (slot : Nat) : Except Fault Nat := Registers.read s.regs.counts slot

def groupStart (s : MatchState) (n : Nat) : Except Fault (Option Nat) :=
  Registers.read s.regs.starts n

def groupStop (s : MatchState) (n : Nat) : Except Fault (Option Nat) := Registers.read s.regs.ends n

def group (s : MatchState) (n : Nat) : Except Fault (Option Span) := s.regs.group n

@[inline]
def setConsumed (s : MatchState) (slot : Nat) (p : Option Nat) : Except Fault MatchState := do
  return { s with regs := ← s.regs.setConsumed slot p }

@[inline]
def setCount (s : MatchState) (slot n : Nat) : Except Fault MatchState := do
  return { s with regs := ← s.regs.setCount slot n }

@[inline]
def setGroup (s : MatchState) (n : Nat) (start stop : Option Nat) : Except Fault MatchState := do
  return { s with regs := ← s.regs.setGroup n start stop }

def save (s : MatchState) (f : Frame) : Except Fault Registers :=
  if s.regs.hasFrame f then .ok s.regs else .error .register

def restoreFrame (s : MatchState) (f : Frame) (saved : Registers) : MatchState :=
  { s with regs := s.regs.restoreFrame f saved }

@[inline]
def enter (s : MatchState) : Bool × MatchState :=
  let (may, budget) := s.budget.enter
  (may, { s with budget })

@[inline]
def leave (s : MatchState) : MatchState := { s with budget := s.budget.leave }

@[inline]
def proceed (s : MatchState) : Bool × MatchState :=
  let (may, budget) := s.budget.poll
  (may, { s with budget })

@[inline]
def isHalted (s : MatchState) : Bool := s.budget.isHalted

def takeHalt (s : MatchState) : Option Halt × MatchState :=
  (s.budget.halt, { s with budget := { s.budget with halt := none } })

end MatchState

end BacktrackRegex
