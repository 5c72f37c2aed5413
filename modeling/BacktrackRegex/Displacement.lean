import BacktrackRegex.Expr
import BacktrackRegex.Outcome

/-! What changes if other text is put before a text. Some anchors look at what stands before them;
all else is found as many bytes further on. -/
namespace BacktrackRegex

/-- Whether a condition on an offset depends on what stands before it. -/
def Anchor.looksBack : Anchor → Bool
  | startText | startLine | wordBoundary | notWordBoundary => true
  | endText | endTextOptionalNewline | endLine | startPosition => false

def Expr.looksBack : Expr → Bool
  | anchor condition => condition.looksBack
  | _ => false

def Span.shift (n : Nat) (s : Span) : Span := ⟨n + s.start, n + s.stop⟩

def Captures.shift (n : Nat) (t : Text) (c : Captures) : Captures :=
  ⟨t, c.spans.map (·.map (·.shift n))⟩

def Outcome.shift (n : Nat) (t : Text) : Outcome → Outcome
  | matched c => matched (c.shift n t)
  | noMatch => noMatch

end BacktrackRegex
