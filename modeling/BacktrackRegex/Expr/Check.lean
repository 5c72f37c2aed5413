import BacktrackRegex.Error
import BacktrackRegex.Expr

/-! What an expression must satisfy to be compiled: back references name existing capture groups,
also later ones; the bounds of repetitions are in order; alternations have branches. The tree is
checked in pre-order and the first defect is reported. -/
namespace BacktrackRegex.Expr

mutual
def check (captures : Nat) : Expr → Except CompileError Unit
  | empty | literal .. | charClass _ | anchor _ => return ()
  | backReference n _ =>
    if n = 0 ∨ captures < n then throw (.invalidBackReference n) else return ()
  | concat items => checkAll captures items
  | alternation branches =>
    if branches.isEmpty then throw .emptyAlternation else checkAll captures branches
  | group _ body => body.check captures
  | repetition body min max _ =>
    match max with
    | some m => if m < min then throw (.invalidRepeatRange min m) else body.check captures
    | none => body.check captures
def checkAll (captures : Nat) : List Expr → Except CompileError Unit
  | [] => return ()
  | e :: es => do
    e.check captures
    checkAll captures es
end

end BacktrackRegex.Expr
