import BacktrackRegex.Expr
import BacktrackRegex.Literal

/-! What an expression matches, read off the tree: the ways in which it matches from an offset on,
in the order in which backtracking tries them. Each way is an end together with what the capture
groups hold by then. The first one is the match. -/
namespace BacktrackRegex

abbrev Holdings := List (Option Span)

abbrev Way := Nat × Holdings

/-- The ways to repeat a body, whose ways are given, from `p` on with `n` iterations completed. An
iteration that ends where it began is the last one, whatever the bounds. All others consume, so
`steps` need not exceed the bytes up to the end of the text, and one more. -/
def iterations (body : Nat → Holdings → List Way) (greedy : Bool) (min : Nat) (max : Option Nat) :
    Nat → Nat → Nat → Holdings → List Way
  | 0, _, _, _ => []
  | steps + 1, n, p, held =>
    let again :=
      if max.all (n < ·) then
        (body p held).flatMap fun (q, held) =>
          if q = p then [(q, held)] else iterations body greedy min max steps (n + 1) q held
      else []
    let stop := if min ≤ n then [(p, held)] else []
    if greedy then again ++ stop else stop ++ again

namespace Expr

def leafWays (held : Holdings) : Except Fault (Option Nat) → List Way
  | .ok (some stop) => [(stop, held)]
  | _ => []

mutual

/-- The ways to match an expression from `p` on, for a search that began at `origin`. Its capture
groups are numbered from `cap` on. -/
def ways (t : Text) (origin : Nat) : Expr → Nat → Nat → Holdings → List Way
  | empty, _, p, held => [(p, held)]
  | literal text ignoreCase, _, p, held => leafWays held (literalEnd text ignoreCase t p)
  | charClass members, _, p, held => leafWays held (members.endAt t p)
  | anchor condition, _, p, held =>
    leafWays held ((condition.holdsAt t p origin).map fun holds => if holds then some p else none)
  | backReference n ignoreCase, _, p, held =>
    leafWays held (backReferenceEnd held[n]?.join ignoreCase t p)
  | concat items, cap, p, held => waysAll t origin items cap p held
  | alternation branches, cap, p, held => waysAny t origin branches cap p held
  | group .capture body, cap, p, held =>
    (ways t origin body (cap + 1) p held).map fun (q, held) => (q, held.set cap (some ⟨p, q⟩))
  | group .nonCapture body, cap, p, held => ways t origin body cap p held
  | group .atomic body, cap, p, held => (ways t origin body cap p held).take 1
  | group .lookAhead body, cap, p, held =>
    ((ways t origin body cap p held).take 1).map fun (_, held) => (p, held)
  | group .negativeLookAhead body, cap, p, held =>
    if (ways t origin body cap p held).isEmpty then [(p, held)] else []
  | repetition body min max kind, cap, p, held =>
    if max = some 0 then [(p, held)]
    else
      let all := iterations (ways t origin body cap) (kind != .reluctant) min max (t.size - p + 1)
        0 p held
      if kind = .possessive then all.take 1 else all

def waysAll (t : Text) (origin : Nat) : List Expr → Nat → Nat → Holdings → List Way
  | [], _, p, held => [(p, held)]
  | item :: items, cap, p, held =>
    (ways t origin item cap p held).flatMap fun (q, held) =>
      waysAll t origin items (cap + item.captureCount) q held

def waysAny (t : Text) (origin : Nat) : List Expr → Nat → Nat → Holdings → List Way
  | [], _, _, _ => []
  | branch :: branches, cap, p, held =>
    ways t origin branch cap p held ++
      waysAny t origin branches (cap + branch.captureCount) p held

end

def firstWay? (e : Expr) (t : Text) (start : Nat) : Option Holdings :=
  (e.ways t start 1 start (.replicate (e.captureCount + 1) none)).head?.map fun (stop, held) =>
    held.set 0 (some ⟨start, stop⟩)

end Expr

end BacktrackRegex
