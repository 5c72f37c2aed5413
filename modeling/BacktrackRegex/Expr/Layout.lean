import BacktrackRegex.Expr

/-! The places of the parts of an expression, read off the tree: where the capture groups stand, and
which part each node of the graph is made from. -/
namespace BacktrackRegex

abbrev Path := List Nat

namespace Expr

/-- The part at a place. Items and branches are numbered from 0. A possessive repetition is an
atomic group, whose one part is the greedy repetition. -/
def part? : Expr → Path → Option Expr
  | e, [] => some e
  | concat items, i :: path => items[i]?.bind (part? · path)
  | alternation branches, i :: path => branches[i]?.bind (part? · path)
  | group _ body, 0 :: path => body.part? path
  | repetition body min max .possessive, 0 :: path => (repetition body min max .greedy).part? path
  | repetition body _ _ _, 0 :: path => body.part? path
  | _, _ => none

mutual
def captureGroups : Expr → List Path
  | empty | literal .. | charClass _ | anchor _ | backReference .. => []
  | concat items => captureGroupsAll 0 items
  | alternation branches => captureGroupsAll 0 branches
  | group kind body =>
    (if kind = .capture then [[]] else []) ++ body.captureGroups.map (0 :: ·)
  | repetition body _ _ kind =>
    let inner := body.captureGroups.map (0 :: ·)
    if kind = .possessive then inner.map (0 :: ·) else inner
def captureGroupsAll (i : Nat) : List Expr → List Path
  | [] => []
  | e :: es => e.captureGroups.map (i :: ·) ++ captureGroupsAll (i + 1) es
end

def numberedGroups (e : Expr) : List (Path × Nat) := e.captureGroups.zipIdx 1

mutual
/-- The places of the parts that the nodes of an expression are made from, in the order in which the
nodes are made. The items of a row come last to first, and get a node of their own if several of
them have nodes. The first and the last node of a group are its end and its beginning; a repetition
has two nodes, before those of its body or, if it repeats a simple leaf, the second one after it. -/
def layout : Expr → List Path
  | empty => []
  | literal text _ => if text = "" then [] else [[]]
  | charClass _ | anchor _ | backReference .. => [[]]
  | concat items =>
    let rows := layoutAll 0 items
    rows.reverse.flatten ++ if 1 < rows.countP (!·.isEmpty) then [[]] else []
  | alternation branches => [] :: (layoutAll 0 branches).flatten ++ [[]]
  | group _ (alternation branches) => [] :: (layoutAll 0 branches).flatten.map (0 :: ·) ++ [[]]
  | group _ body => [] :: body.layout.map (0 :: ·) ++ [[]]
  | repetition body _ max kind =>
    if max = some 0 then []
    else
      let loop :=
        if body.isSimpleLeaf then [[0], []] else [] :: [] :: body.layout.map (0 :: ·)
      if kind = .possessive then [] :: loop.map (0 :: ·) ++ [[]] else loop
def layoutAll (i : Nat) : List Expr → List (List Path)
  | [] => []
  | e :: es => e.layout.map (i :: ·) :: layoutAll (i + 1) es
end

/-- The place of the part that a node is made from. The first node is the end of every match and
made from none. -/
def source? (e : Expr) : Nat → Option Path
  | 0 => none
  | id + 1 => e.layout[id]?

end Expr

end BacktrackRegex
