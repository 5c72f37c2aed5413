import BacktrackRegex.Unicode.Lowercase
import BacktrackRegex.Unicode.Uppercase

/-! Comparing characters without regard to case. -/
namespace BacktrackRegex

/-- The lowercase form of `c` where that is one character, else `c` itself. -/
def fold (c : Char) : Char :=
  match Unicode.lowercase c with
  | [l] => l
  | _ => c

def eqIgnoringCase (a b : Char) : Bool := a == b || fold a == fold b

theorem eqIgnoringCase_iff {a b : Char} : eqIgnoringCase a b = true ↔ fold a = fold b := by
  simp only [eqIgnoringCase, Bool.or_eq_true, beq_iff_eq]
  exact ⟨fun h => h.elim (congrArg fold) id, .inr⟩

end BacktrackRegex
