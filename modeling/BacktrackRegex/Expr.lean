import BacktrackRegex.Anchor
import BacktrackRegex.CharClass

/-! Regular expressions as trees. Capture groups are numbered from 1 in pre-order; number 0 is the
whole match. An atomic group and a possessive repetition keep the first way to match and give the
others up; a lookahead goes on where it began. -/
namespace BacktrackRegex

inductive GroupKind where
  | capture
  | nonCapture
  | atomic
  | lookAhead
  | negativeLookAhead
  deriving DecidableEq, Repr

inductive RepeatKind where
  | greedy
  | reluctant
  | possessive
  deriving DecidableEq, Repr

inductive Expr where
  | empty
  | literal (text : String) (ignoreCase : Bool)
  | charClass (members : CharClass)
  | anchor (condition : Anchor)
  | backReference (group : Nat) (ignoreCase : Bool)
  | concat (items : List Expr)
  | alternation (branches : List Expr)
  | group (kind : GroupKind) (body : Expr)
  /-- From `min` to `max` iterations of `body`, without an upper bound if `max` is `none`. -/
  | repetition (body : Expr) (min : Nat) (max : Option Nat) (kind : RepeatKind)
  deriving BEq, Repr

namespace Expr

mutual
def captureCount : Expr → Nat
  | empty | literal .. | charClass _ | anchor _ | backReference .. => 0
  | concat items => captureCountAll items
  | alternation branches => captureCountAll branches
  | group kind body => body.captureCount + if kind = .capture then 1 else 0
  | repetition body _ _ _ => body.captureCount
def captureCountAll : List Expr → Nat
  | [] => 0
  | e :: es => e.captureCount + captureCountAll es
end

/-- Whether an expression is a literal with text or a class: whether it always consumes and has one
way to match. -/
def isSimpleLeaf : Expr → Bool
  | literal text _ => text != ""
  | charClass _ => true
  | _ => false

end Expr

end BacktrackRegex
