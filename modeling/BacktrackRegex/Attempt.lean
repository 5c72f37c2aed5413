import BacktrackRegex.Attempt.Atomic
import BacktrackRegex.Attempt.Group
import BacktrackRegex.Attempt.LeafRepeat
import BacktrackRegex.Attempt.Repeat
import BacktrackRegex.Literal

/-! Matching a graph from a node on. Each kind of node has its rule; the rules visit further nodes,
and the visits nest. A visit goes on at the same offset or a later one. At one offset a loop's body
is entered again at most once from the loop's tail, and otherwise the visits lead down an order of
the nodes, so the nesting is bounded by a polynomial in the sizes of text and graph
(`nestingBound`). -/
namespace BacktrackRegex

namespace Graph

def leafEnd (g : Graph) (t : Text) (s : MatchState) (id : NodeId) (p : Nat) :
    Except Fault (Option Nat) := do
  match ← g.node id with
  | .literal text ignoreCase _ => literalEnd text ignoreCase t p
  | .charClass members _ => members.endAt t p
  | .backReference n ignoreCase _ => backReferenceEnd (← s.group n) ignoreCase t p
  | .anchor condition _ => return if ← condition.holdsAt t p s.origin then some p else none
  | _ => return none

def loopAt? (g : Graph) (id : NodeId) : Except Fault (Option Loop) := do
  match ← g.node id with
  | .loop l => return some l
  | _ => return none

def visitNode (g : Graph) (t : Text) (visit : Visit) (id : NodeId) (p : Nat) (s : MatchState) :
    Attempted := do
  match ← g.node id with
  | .succeed | .commit _ => return (some p, s)
  | .literal _ _ next | .charClass _ next | .backReference _ _ next | .anchor _ next =>
    match ← g.leafEnd t s id p with
    | some stop => visit next stop s
    | none => return (none, s)
  | .sequence children next => visit (children.head?.getD next) p s
  | .group slot _ branches _ => Attempt.group visit slot branches p s
  | .groupEnd slot capture next => Attempt.groupEnd visit slot capture next p s
  | .loop l => Attempt.loop visit l p s
  | .loopTail owner =>
    match ← g.loopAt? owner with
    | some l => Attempt.loopTail visit l p s
    | none => return (none, s)
  | .leafLoop leaf min max greedy next =>
    if greedy then Attempt.leafLoopGreedy visit t (g.leafEnd t s leaf) min max next p s
    else
      Attempt.leafLoopReluctant visit (g.leafEnd t s leaf) next (Attempt.iterationsWithin t p max)
        min p s
  | .atomic slot branches inner next => Attempt.atomic visit slot branches inner next p s
  | .lookAhead slot negative branches inner next =>
    Attempt.lookAhead visit slot negative branches inner next p s

/-- Visits a node, with at most `depth` visits open at once. The visit counts as open meanwhile. -/
def attemptWithin (g : Graph) (t : Text) : Nat → Visit
  | 0, _, _, _ => throw .nesting
  | depth + 1, id, p, s =>
    match s.enter with
    | (false, s) => return (none, s)
    | (true, s) => do
      let (stop, s) ← g.visitNode t (g.attemptWithin t depth) id p s
      return (stop, s.leave)

def nestingBound (g : Graph) (t : Text) : Nat := 2 * (t.size + 1) * ((g.size + 1) * (g.size + 1))

def attempt (g : Graph) (t : Text) : Visit := g.attemptWithin t (g.nestingBound t)

end Graph

end BacktrackRegex
