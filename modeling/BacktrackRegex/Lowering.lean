import BacktrackRegex.Expr.Check
import BacktrackRegex.Graph.Lead

/-! From trees to graphs. Nodes are made back to front, each linked to what follows it, so a link
leads to a node with a smaller id; only a loop leads up, to its body. Items that match nothing but
the empty text in one way leave no node, and neither do repetitions of at most zero iterations. -/
namespace BacktrackRegex

def Node.succeedId : NodeId := 0

structure Draft where
  nodes : Array Node
  slots : Nat

abbrev Drafting := StateM Draft

namespace Drafting

def push (n : Node) : Drafting NodeId :=
  modifyGet fun d => (d.nodes.size, { d with nodes := d.nodes.push n })

def newSlot : Drafting Nat :=
  modifyGet fun d => (d.slots, { d with slots := d.slots + 1 })

def replace (id : NodeId) (n : Node) : Drafting Unit :=
  modify fun d => { d with nodes := d.nodes.setIfInBounds id n }

def slots : Drafting Nat := return (← get).slots

/-- A group around branches. They are lowered to go on at the group's end, with capture numbers from
the given one on; `captures` is the number of capture groups in them. -/
def group (kind : GroupKind) (captures : Nat) (next : NodeId) (cap : Nat)
    (branches : NodeId → Nat → Drafting (List NodeId)) : Drafting NodeId := do
  let slot ← newSlot
  let capture := if kind = .capture then some cap else none
  let firstInner := if kind = .capture then cap + 1 else cap
  let tail ← push <|
    match kind with
    | .capture | .nonCapture => .groupEnd slot capture next
    | .atomic | .lookAhead | .negativeLookAhead => .commit slot
  let ids ← branches tail firstInner
  let inner := ⟨⟨firstInner, firstInner + captures⟩, ⟨slot + 1, ← slots⟩⟩
  push <|
    match kind with
    | .capture | .nonCapture => .group slot capture ids next
    | .atomic => .atomic slot ids inner next
    | .lookAhead => .lookAhead slot false ids inner next
    | .negativeLookAhead => .lookAhead slot true ids inner next

def loop (simple : Bool) (min : Nat) (max : Option Nat) (greedy : Bool) (next : NodeId)
    (body : NodeId → Drafting NodeId) : Drafting NodeId := do
  if simple then
    let leaf ← body Node.succeedId
    push (.leafLoop leaf min max greedy next)
  else
    let slot ← newSlot
    let id ← push .succeed
    let tail ← push (.loopTail id)
    let body ← body tail
    replace id (.loop ⟨slot, body, min, max, greedy, next⟩)
    return id

def sequence (children : List NodeId) (next : NodeId) : Drafting NodeId :=
  match children with
  | [] => return next
  | [child] => return child
  | children => push (.sequence children next)

end Drafting

namespace Expr

mutual
/-- The node that matches an expression and goes on at `next`; its capture groups are numbered from
`cap` on. -/
def lower : Expr → NodeId → Nat → Drafting NodeId
  | empty, next, _ => return next
  | literal text ignoreCase, next, _ =>
    if text = "" then return next else .push (.literal text ignoreCase next)
  | charClass members, next, _ => .push (.charClass members next)
  | anchor condition, next, _ => .push (.anchor condition next)
  | backReference n ignoreCase, next, _ => .push (.backReference n ignoreCase next)
  | concat items, next, cap => do
    let (children, _) ← lowerItems items next cap
    .sequence children next
  | alternation branches, next, cap =>
    .group .nonCapture (captureCountAll branches) next cap (lowerBranches branches)
  | group kind (alternation branches), next, cap =>
    .group kind (captureCountAll branches) next cap (lowerBranches branches)
  | group kind body, next, cap =>
    .group kind body.captureCount next cap fun tail cap => return [← lower body tail cap]
  | repetition body min max kind, next, cap =>
    if max = some 0 then return next
    else
      match kind with
      | .greedy => .loop body.isSimpleLeaf min max true next fun tail => lower body tail cap
      | .reluctant => .loop body.isSimpleLeaf min max false next fun tail => lower body tail cap
      | .possessive =>
        .group .atomic body.captureCount next cap fun tail cap =>
          return [← .loop body.isSimpleLeaf min max true tail fun tail => lower body tail cap]
def lowerItems : List Expr → NodeId → Nat → Drafting (List NodeId × NodeId)
  | [], next, _ => return ([], next)
  | item :: items, next, cap => do
    let (children, entry) ← lowerItems items next (cap + item.captureCount)
    let id ← lower item entry cap
    return if id = entry then (children, entry) else (id :: children, id)
def lowerBranches : List Expr → NodeId → Nat → Drafting (List NodeId)
  | [], _, _ => return []
  | branch :: branches, next, cap => do
    let id ← lower branch next cap
    return id :: (← lowerBranches branches next (cap + branch.captureCount))
end

def compile (e : Expr) : Except CompileError Graph := do
  let captures := e.captureCount
  e.check captures
  let (entry, draft) := (e.lower Node.succeedId 1).run ⟨#[.succeed], 0⟩
  return {
    nodes := draft.nodes
    entry
    captures
    slots := draft.slots
    leadByte := Node.leadByte? draft.nodes draft.nodes.size entry }

end Expr

end BacktrackRegex
