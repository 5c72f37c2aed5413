import BacktrackRegex.Outcome

/-! One-line summaries of captures and states, for logs. An entry that may be missing is written as
`Some(…)` or `None`, a span by its bounds, a list in brackets. -/
namespace BacktrackRegex

namespace Summary

def entry (text : α → String) : Option α → String
  | some x => "Some(" ++ text x ++ ")"
  | none => "None"

def list (text : α → String) (xs : List α) : String := "[" ++ ", ".intercalate (xs.map text) ++ "]"

def span (s : Span) : String := s!"{s.start}..{s.stop}"

/-- A record: its name, its fields in order, and two dots if there are others. -/
def record (name : String) (fields : List (String × String)) (others : Bool) : String :=
  let written := fields.map fun (field, value) => field ++ ": " ++ value
  name ++ " \x7b " ++ ", ".intercalate (if others then written ++ [".."] else written) ++ " \x7d"

def registers (r : Registers) : String :=
  record "Registers"
    [("consumed", list (entry toString) r.consumed.toList),
      ("counts", list toString r.counts.toList),
      ("starts", list (entry toString) r.starts.toList),
      ("ends", list (entry toString) r.ends.toList),
      ("origin", toString r.origin)] false

end Summary

def Captures.summary (c : Captures) : String :=
  Summary.list (Summary.entry Summary.span) c.spans.toList

def MatchState.summary (s : MatchState) : String :=
  Summary.record "MatchState"
    [("regs", Summary.registers s.regs), ("halted", Summary.entry Halt.label s.budget.halt)] true

end BacktrackRegex
