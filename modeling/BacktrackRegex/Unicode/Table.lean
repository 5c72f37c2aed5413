/-! Sorted tables of code points. A property of characters is a table of disjoint ranges in
ascending order, a mapping a table of disjoint runs; both are searched by halving. -/
namespace BacktrackRegex.Unicode

/-- The number of entries of a sorted table whose key is at most `n`, between `lo` and `hi`. Each
step halves the interval, so `steps` need not exceed its length. -/
def countUpTo (key : Nat → Nat) (n : Nat) : Nat → Nat → Nat → Nat
  | 0, lo, _ => lo
  | steps + 1, lo, hi =>
    if lo < hi then
      let middle := (lo + hi) / 2
      if key middle ≤ n then countUpTo key n steps (middle + 1) hi
      else countUpTo key n steps lo middle
    else lo

def lastUpTo? (table : Array α) (key : α → Nat) (n : Nat) : Option α :=
  match countUpTo (fun i => (table[i]?.map key).getD 0) n table.size 0 table.size with
  | 0 => none
  | i + 1 => table[i]?

def inRanges (ranges : Array (Nat × Nat)) (n : Nat) : Bool :=
  match lastUpTo? ranges (·.1) n with
  | some (_, last) => n ≤ last
  | none => false

/-- Code points `first`, `first + step`, …, `last`, mapped to `target`, `target + step`, …. -/
structure Run where
  first : Nat
  last : Nat
  step : Nat
  target : Nat

def Run.map? (runs : Array Run) (n : Nat) : Option Nat :=
  match lastUpTo? runs (·.first) n with
  | some r =>
    if n ≤ r.last ∧ (n - r.first) % r.step = 0 then some (r.target + (n - r.first)) else none
  | none => none

end BacktrackRegex.Unicode
