import BacktrackRegex.Graph
import BacktrackRegex.Span

/-! What a match remembers on its way: per slot, where the group's or iteration's content began and
how many iterations were completed; per capture number, where the capture starts and ends. -/
namespace BacktrackRegex

structure Registers where
  consumed : Array (Option Nat)
  counts : Array Nat
  starts : Array (Option Nat)
  ends : Array (Option Nat)
  origin : Nat
  deriving DecidableEq, Repr

namespace Registers

def unset (slots captures origin : Nat) : Registers where
  consumed := .replicate slots none
  counts := .replicate slots 0
  starts := .replicate (captures + 1) none
  ends := .replicate (captures + 1) none
  origin := origin

def clear (r : Registers) (origin : Nat) : Registers where
  consumed := r.consumed.map fun _ => none
  counts := r.counts.map fun _ => 0
  starts := r.starts.map fun _ => none
  ends := r.ends.map fun _ => none
  origin := origin

@[inline]
def read (file : Array α) (i : Nat) : Except Fault α :=
  match file[i]? with
  | some x => .ok x
  | none => .error .register

@[inline]
def write (file : Array α) (i : Nat) (x : α) : Except Fault (Array α) :=
  if h : i < file.size then .ok (file.set i x h) else .error .register

@[inline]
def setConsumed (r : Registers) (slot : Nat) (p : Option Nat) : Except Fault Registers := do
  return { r with consumed := ← write r.consumed slot p }

@[inline]
def setCount (r : Registers) (slot n : Nat) : Except Fault Registers := do
  return { r with counts := ← write r.counts slot n }

@[inline]
def setGroup (r : Registers) (n : Nat) (start stop : Option Nat) : Except Fault Registers := do
  return { r with starts := ← write r.starts n start, ends := ← write r.ends n stop }

def group (r : Registers) (n : Nat) : Except Fault (Option Span) := do
  match ← read r.starts n, ← read r.ends n with
  | some start, some stop => return some ⟨start, stop⟩
  | _, _ => return none

def hasFrame (r : Registers) (f : Frame) : Bool :=
  f.captures.stop ≤ r.starts.size && f.slots.stop ≤ r.consumed.size

/-- The registers inside the frame as they were in `old`, all others as they are. -/
def restoreFrame (r : Registers) (f : Frame) (old : Registers) : Registers :=
  { r with
    consumed := f.slots.overlay old.consumed r.consumed
    counts := f.slots.overlay old.counts r.counts
    starts := f.captures.overlay old.starts r.starts
    ends := f.captures.overlay old.ends r.ends }

end Registers

end BacktrackRegex
