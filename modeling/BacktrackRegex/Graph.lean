import BacktrackRegex.CharClass
import BacktrackRegex.Anchor
import BacktrackRegex.Fault

/-! Graphs of match nodes. A node says what to match and which node goes on from there. Groups,
atomic groups, lookaheads and general repetitions own a slot, a place for what they must remember
while they are being matched. A loop's tail ends one iteration, a commit ends a branch of an atomic
group or a lookahead, and a leaf loop repeats a single literal or class in place. -/
namespace BacktrackRegex

abbrev NodeId := Nat

/-- The natural numbers from `start` up to, not including, `stop`. -/
structure Interval where
  start : Nat
  stop : Nat
  deriving DecidableEq, Repr

namespace Interval

def contains (r : Interval) (n : Nat) : Bool := r.start ≤ n && n < r.stop

/-- The entries of `old` inside the interval and those of `new` outside. -/
def overlay (r : Interval) (old new : Array α) : Array α :=
  new.mapIdx fun i x => if r.contains i then old[i]?.getD x else x

end Interval

/-- The capture numbers and slots that belong to what a group encloses. -/
structure Frame where
  captures : Interval
  slots : Interval
  deriving DecidableEq, Repr

structure Loop where
  slot : Nat
  body : NodeId
  min : Nat
  max : Option Nat
  greedy : Bool
  next : NodeId
  deriving DecidableEq, Repr

inductive Node where
  | succeed
  | literal (text : String) (ignoreCase : Bool) (next : NodeId)
  | charClass (members : CharClass) (next : NodeId)
  | anchor (condition : Anchor) (next : NodeId)
  | backReference (group : Nat) (ignoreCase : Bool) (next : NodeId)
  /-- Two or more nodes in a row. They are linked to each other; `next` follows the last. -/
  | sequence (children : List NodeId) (next : NodeId)
  | group (slot : Nat) (capture : Option Nat) (branches : List NodeId) (next : NodeId)
  | groupEnd (slot : Nat) (capture : Option Nat) (next : NodeId)
  | loop (loop : Loop)
  | loopTail (owner : NodeId)
  | leafLoop (leaf : NodeId) (min : Nat) (max : Option Nat) (greedy : Bool) (next : NodeId)
  | atomic (slot : Nat) (branches : List NodeId) (inner : Frame) (next : NodeId)
  | lookAhead (slot : Nat) (negative : Bool) (branches : List NodeId) (inner : Frame)
    (next : NodeId)
  | commit (slot : Nat)
  deriving DecidableEq, Repr

def Node.next? : Node → Option NodeId
  | literal _ _ next | charClass _ next | anchor _ next | backReference _ _ next
  | sequence _ next | group _ _ _ next | groupEnd _ _ next | leafLoop _ _ _ _ next
  | atomic _ _ _ next | lookAhead _ _ _ _ next => some next
  | loop l => some l.next
  | succeed | loopTail _ | commit _ => none

structure Graph where
  nodes : Array Node
  entry : NodeId
  captures : Nat
  slots : Nat
  /-- The byte that every match begins with, if the expression shows one. -/
  leadByte : Option UInt8
  deriving DecidableEq, Repr

namespace Graph

def size (g : Graph) : Nat := g.nodes.size

def node (g : Graph) (id : NodeId) : Except Fault Node :=
  match g.nodes[id]? with
  | some n => .ok n
  | none => .error .node

end Graph

end BacktrackRegex
