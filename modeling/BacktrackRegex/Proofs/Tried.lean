import BacktrackRegex.Proofs.Trips

/-! The attempts that a match or a search makes. Each begins at a boundary, with nothing set, no
visit open and no limit tripped, and the last of them decides how the match or the search ends. -/
namespace BacktrackRegex

namespace Graph

/-- What an attempt at `p` finds when it begins. -/
structure Begins (g : Graph) (t : Text) (origin : Nat) (options : MatchOptions) (p : Nat)
    (s : MatchState) : Prop where
  boundary : t.isBoundary p = true
  cleared : ∃ before r, Fitted g before r ∧ s.regs = r.clear origin
  options : s.budget.options = options
  depth : s.budget.depth = 0
  running : s.isHalted = false

/-- The match or the search from `start` makes an attempt at an offset in a state. -/
inductive Makes (g : Graph) (t : Text) (start : Nat) (options : MatchOptions) :
    Nat → MatchState → Prop
  | run : Makes g t start options start (.fresh g options start)
  | search {q : Nat} {s : MatchState} (tries : g.Tries t start start (.ofGraph g options) q s) :
    Makes g t start options q s

variable {g : Graph} {t : Text} {origin start p : Nat} {options : MatchOptions} {s u : MatchState}
  {verdict : Verdict}

theorem attemptAt_running (ok : g.attemptAt t p s = .ok (.ok .noMatch, u)) :
    u.isHalted = false := by
  obtain ⟨stop, after, _, running, ended⟩ := attemptAt_success ok
  cases stop with
  | none => exact ended.2 ▸ running
  | some q => cases ended.2

theorem Tries.of_searchFrom (ok : g.searchFrom t origin p s = .ok (verdict, u)) :
    verdict = .ok .noMatch ∨ ∃ q before, g.Tries t origin p s q before ∧
      g.attemptAt t q before = .ok (verdict, u) := by
  induction left : t.size - p using Nat.strongRecOn generalizing p s with
  | ind left ih =>
  obtain ⟨_, rfl, _⟩ | ⟨q, first, after, found, attempted, ok⟩ := searchFrom_success ok
  · exact .inl rfl
  · obtain ⟨rfl, rfl, _⟩ | ⟨rfl, c, read, ok⟩ := searchOn_success ok
    · exact .inr ⟨q, _, .first found, attempted⟩
    · have less := Text.left_lt_of_charAt (le_of_candidate? found) read
      refine (ih _ (left ▸ less) ok rfl).imp_right ?_
      rintro ⟨r, before, tries, attempted'⟩
      exact ⟨r, before, .later found attempted read tries, attempted'⟩

theorem Makes.of_verdict (valid : t.isBoundary start = true)
    (ended : g.run t start options = .ok verdict ∨ g.search t start options = .ok verdict) :
    verdict = .ok .noMatch ∨ ∃ q s u, g.Makes t start options q s ∧
      g.attemptAt t q s = .ok (verdict, u) := by
  obtain run | search := ended
  · obtain ⟨⟨_, u⟩, matched, same⟩ := bind_success run
    cases same
    rw [matchAt, Text.checkStart_ok valid] at matched
    exact .inr ⟨start, _, u, .run, matched⟩
  · obtain ⟨⟨_, u⟩, searched, same⟩ := bind_success search
    cases same
    rw [searchWith, Text.checkStart_ok valid] at searched
    refine (Tries.of_searchFrom searched).imp_right ?_
    rintro ⟨q, before, tries, attempted⟩
    exact ⟨q, before, u, .search tries, attempted⟩

end Graph

namespace Expr.Compiled

variable {e : Expr} {g : Graph} {t : Text} {origin start before p q : Nat} {options : MatchOptions}
  {s s' : MatchState}

theorem tries_begins (compiled : e.Compiled g) (tries : g.Tries t origin p s q s')
    (valid : t.isBoundary p = true) (fitted : Fitted g before s.regs)
    (same : s.budget.options = options) (running : s.isHalted = false) :
    g.Begins t origin options q s' := by
  induction tries generalizing before with
  | first found =>
    have there := (Graph.candidate?_some compiled.leadByte valid found).1
    exact ⟨there, ⟨before, _, fitted, rfl⟩, same, rfl, running⟩
  | @later p q _ s u _ c found failed read _ ih =>
    have there := (Graph.candidate?_some compiled.leadByte valid found).1
    obtain ⟨_, _, answer, fitted', _⟩ :=
      compiled.attemptAt_reports (s := s.resetAttempt origin) there fitted rfl
    cases failed.symm.trans answer
    exact ih (Text.charAt_next read).2 fitted' ((Graph.attemptAt_options failed).trans same)
      (Graph.attemptAt_running failed)

theorem makes_begins (compiled : e.Compiled g) (valid : t.isBoundary start = true)
    (makes : g.Makes t start options p s) : g.Begins t start options p s := by
  cases makes with
  | run => exact ⟨valid, ⟨0, _, .unset g 0, rfl⟩, rfl, rfl, rfl⟩
  | search tries => exact compiled.tries_begins tries valid (.unset g 0) rfl rfl

theorem begins_sound (compiled : e.Compiled g) (begins : g.Begins t origin options p s) :
    (compiled.course t origin p).Sound p s.regs := by
  obtain ⟨before, r, fitted, cleared⟩ := begins.cleared
  rw [cleared]
  exact Course.sound_clear (c := compiled.course t origin p) fitted begins.boundary

end Expr.Compiled

end BacktrackRegex
