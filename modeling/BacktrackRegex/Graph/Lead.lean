import BacktrackRegex.Graph
import BacktrackRegex.Text

/-! The byte that every match of a node must begin with. It is read off literals that keep their
case, through whatever must be matched first: a sequence, a group with one branch, a repetition that
needs an iteration. -/
namespace BacktrackRegex.Node

/-- The lead byte of the node `id`, if it shows one within `depth` enclosing nodes. -/
def leadByte? (nodes : Array Node) : Nat → NodeId → Option UInt8
  | 0, _ => none
  | depth + 1, id =>
    match nodes[id]? with
    | some (.literal text false _) => Text.byte? text 0
    | some (.sequence (first :: _) _) => leadByte? nodes depth first
    | some (.group _ _ [branch] _) => leadByte? nodes depth branch
    | some (.atomic _ [branch] _ _) => leadByte? nodes depth branch
    | some (.loop l) => if 0 < l.min then leadByte? nodes depth l.body else none
    | some (.leafLoop leaf min _ _ _) => if 0 < min then leadByte? nodes depth leaf else none
    | _ => none

end BacktrackRegex.Node
