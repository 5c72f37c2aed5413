import BacktrackRegex.Proofs.Cutoffs
import BacktrackRegex.Proofs.Scan

/-! Halts. Once a limit has tripped nothing succeeds and nothing is changed any more, so a halt goes
through to the match or the search that it ends. It is neither a failed attempt, after which
something else is tried, nor what a negative lookahead asks for. -/
namespace BacktrackRegex

/-- Visits, with those of `other` in place of the ones that end with a halt. -/
def Graph.attemptOr (g : Graph) (t : Text) (other : Visit) : Nat → Visit
  | 0, _, _, _ => throw .nesting
  | depth + 1, id, p, s => do
    let (stop, s') ← Attempt.opened (g.visitNode t (g.attemptOr t other depth) id p) s
    if s'.isHalted then other id p s else return (stop, s')

namespace Budget

theorem same_lasts : Lasts Eq (·.isHalted = false) := by
  constructor
  case halted =>
    intro b b' same
    exact congrArg isHalted same
  case before => exact trails_lasts.before
  case poll =>
    rintro b _ c may rfl polled _
    exact ⟨c, polled, rfl⟩

theorem same_enters : Enters Eq Eq (·.isHalted = false) := by
  constructor
  case before => exact trails_enters.before
  case refused =>
    rintro b _ c rfl entered _
    exact ⟨c, entered, rfl⟩
  case granted =>
    rintro b _ c rfl entered _
    exact ⟨c, entered, rfl⟩
  case leave =>
    intro b b' same
    exact congrArg leave same
  case left =>
    intro b running
    exact running

def polled (b : Budget) (k : Nat) : Budget :=
  { b with retriesInMatch := b.retriesInMatch + k, retriesInSearch := b.retriesInSearch + k }

/-- After `n` more polls, none of which tripped a limit, a budget has come to `c`. -/
structure Came (b : Budget) (n : Nat) (c : Budget) : Prop where
  options : c.options = b.options
  inMatch : c.retriesInMatch = b.retriesInMatch + n
  inSearch : c.retriesInSearch = b.retriesInSearch + n
  fits : ∀ k, 0 < k → k ≤ n → (b.polled k).overdrawn? = none

theorem Came.poll {b c d : Budget} {n : Nat} (came : b.Came n c) (polled : c.poll = (true, d)) :
    b.Came (n + 1) d := by
  obtain ⟨_, fits, rfl⟩ := poll_granted polled
  refine ⟨came.options, congrArg (· + 1) came.inMatch, congrArg (· + 1) came.inSearch,
    fun k positive le => ?_⟩
  obtain earlier | rfl := Nat.le_or_eq_of_le_succ le
  · exact came.fits k positive earlier
  · obtain ⟨inMatch, inSearch, calm⟩ := overdrawn?_none.mp fits
    simp only [counted, came.options, came.inMatch, came.inSearch] at inMatch inSearch calm
    exact overdrawn?_none.mpr ⟨inMatch, inSearch, calm⟩

end Budget

theorem attemptWithin_came {g : Graph} {t : Text} {depth id p : Nat} {s u : MatchState}
    {r : Option Nat} (running : u.isHalted = false)
    (ok : g.attemptWithin t depth id p s = .ok (r, u)) : ∃ n, s.budget.Came n u.budget := by
  refine attemptWithin_after (F := fun b => ∃ n, s.budget.Came n b) ?_ ?_ ?_ running ok
    ⟨0, rfl, rfl, rfl, by omega⟩
  · exact fun polled ⟨n, came⟩ => ⟨n + 1, came.poll polled⟩
  · intro b c entered ⟨n, came⟩
    obtain ⟨_, _, rfl⟩ := Budget.enter_granted entered
    exact ⟨n, came.options, came.inMatch, came.inSearch, came.fits⟩
  · exact fun ⟨n, came⟩ => ⟨n, came.options, came.inMatch, came.inSearch, came.fits⟩

theorem attemptWithin_or {g : Graph} {t : Text} (other : Visit) (depth id p : Nat) :
    Carries Eq (·.isHalted = false) (g.attemptOr t other depth id p)
      (g.attemptWithin t depth id p) := by
  induction depth generalizing id p with
  | zero => exact .fault _ .nesting
  | succ depth ih =>
    have opened := Carries.opened Budget.same_enters
      (Carries.visitNode (g := g) (t := t) Budget.same_lasts ih id p)
    refine ⟨opened.before, fun linked ok running => ?_⟩
    obtain ⟨u, answer, linked'⟩ := opened.again linked ok running
    have running' : u.isHalted = false := by
      rw [MatchState.isHalted, linked'.budget]
      exact running
    refine ⟨u, ?_, linked'⟩
    rw [Graph.attemptOr, answer]
    simp only [bind, Except.bind, running', Bool.false_eq_true, if_false]
    rfl

namespace Graph

variable {g : Graph} {t : Text} {origin p q : Nat} {s before u : MatchState} {stop : Option Nat}
  {cause : Halt}

theorem nestingBound_pos (g : Graph) (t : Text) : 0 < g.nestingBound t := by
  have squared := Nat.mul_pos g.size.succ_pos g.size.succ_pos
  exact Nat.mul_pos (Nat.mul_pos Nat.two_pos t.size.succ_pos) squared

theorem attempt_refused (halt : s.isHalted = true) (id p : Nat) :
    g.attempt t id p s = .ok (none, s) := by
  obtain ⟨depth, bound⟩ := Nat.exists_eq_succ_of_ne_zero (Nat.ne_of_gt (g.nestingBound_pos t))
  have refused : s.enter = (false, s) := by
    rw [MatchState.enter, Budget.enter_refused halt]
  rw [attempt, bound, attemptWithin, refused]
  rfl

theorem attemptAt_halted (attempted : g.attempt t g.entry p s = .ok (stop, u))
    (halt : u.budget.halt = some cause) : g.attemptAt t p s =
      .ok (.error (.halted cause), { u with budget := { u.budget with halt := none } }) := by
  simp only [attemptAt, attempted, MatchState.takeHalt, halt, bind, Except.bind]
  rfl

inductive Tries (g : Graph) (t : Text) (origin : Nat) : Nat → MatchState → Nat → MatchState → Prop
  | first {p q : Nat} {s : MatchState} (found : g.candidate? t p = some q) :
    Tries g t origin p s q (s.resetAttempt origin)
  | later {p q r : Nat} {s u before : MatchState} {c : Char} (found : g.candidate? t p = some q)
    (failed : g.attemptAt t q (s.resetAttempt origin) = .ok (.ok .noMatch, u))
    (read : t.charAt q = .ok (some c)) (rest : Tries g t origin (q + c.utf8Size) u r before) :
    Tries g t origin p s r before

theorem Tries.searchFrom {e : MatchError} (tries : g.Tries t origin p s q before)
    (attempted : g.attemptAt t q before = .ok (.error e, u)) :
    g.searchFrom t origin p s = .ok (.error e, u) := by
  induction tries with
  | first found => exact searchFrom_some found attempted
  | later found failed read _ ih =>
    rw [searchFrom_some found failed, searchOn, read]
    exact ih attempted

end Graph

/-- A visit that ends with a halt has failed, one that begins with a halt changes nothing, and in
the end as many visits are open as in the beginning. What ends without a halt has made no poll that
tripped a limit, and is the same whatever stands in place of the visits inside it that halted, be it
in the body of a lookahead or in an iteration that could be left out. So a match and a search report
the halt of an attempt. -/
theorem Expr.halt_surfaces {e : Expr} {g : Graph} (ok : e.compile = .ok g) (t : Text) :
    (∀ id p s r s', g.attempt t id p s = .ok (r, s') →
      (s'.isHalted = true → r = none) ∧ s'.budget.depth = s.budget.depth ∧
      (s'.isHalted = false → (∃ polls, s.budget.Came polls s'.budget) ∧
        ∀ other, g.attemptOr t other (g.nestingBound t) id p s = .ok (r, s'))) ∧
    (∀ id p s, s.isHalted = true → g.attempt t id p s = .ok (none, s)) ∧
    ∀ start, t.isBoundary start = true → ∀ s r s' cause, s'.budget.halt = some cause →
      (g.attempt t g.entry start (s.reset start) = .ok (r, s') →
        ∃ u, g.matchAt t start s = .ok (.error (.halted cause), u)) ∧
      ∀ q before, g.Tries t start start s q before →
        g.attempt t g.entry q before = .ok (r, s') →
        ∃ u, g.searchWith t start s = .ok (.error (.halted cause), u) := by
  have compiled := compile_compiled ok
  refine ⟨fun id p s r s' attempted => ⟨?_, ?_, ?_⟩, fun id p s halt => g.attempt_refused halt id p,
    fun start valid s r s' cause halt => ⟨fun attempted => ?_, fun q before tries attempted => ?_⟩⟩
  · exact (attemptWithin_tidy compiled.enclosing _ attempted).spends.halted
  · exact (attemptWithin_tidy compiled.enclosing _ attempted).spends.depth
  · refine fun running => ⟨attemptWithin_came running attempted, fun other => ?_⟩
    obtain ⟨⟨regs, budget⟩, answer, same, same'⟩ :=
      (attemptWithin_or other (g.nestingBound t) id p).again (s := s) ⟨rfl, rfl⟩ attempted running
    cases same
    cases same'
    exact answer
  · rw [Graph.matchAt, Text.checkStart_ok valid]
    exact ⟨_, Graph.attemptAt_halted attempted halt⟩
  · rw [Graph.searchWith, Text.checkStart_ok valid]
    exact ⟨_, tries.searchFrom (Graph.attemptAt_halted attempted halt)⟩

theorem Expr.negativeLookAhead_halts : ∃ g, (group .negativeLookAhead (group .nonCapture
      (literal "a" false))).compile = .ok g ∧
    g.run ⟨"b", by decide⟩ 0 {} = .ok (.ok (.matched ⟨⟨"b", by decide⟩, #[some ⟨0, 0⟩]⟩)) ∧
    (∃ u, g.matchAt ⟨"b", by decide⟩ 0 (.ofGraph g { matchStack := 2 }) =
      .ok (.error (.halted .matchStack), u)) ∧
    ∃ u, g.searchWith ⟨"b", by decide⟩ 0 (.ofGraph g { matchStack := 2 }) =
      .ok (.error (.halted .matchStack), u) := by
  let t : Text := ⟨"b", by decide⟩
  let g : Graph := ⟨#[.succeed, .commit 0, .groupEnd 1 none 1, .literal "a" false 2,
    .group 1 none [3] 1, .lookAhead 0 true [4] ⟨⟨1, 1⟩, ⟨1, 2⟩⟩ 0], 5, 0, 2, none⟩
  let s : MatchState := .ofGraph g { matchStack := 2 }
  have ok : (group .negativeLookAhead (group .nonCapture (literal "a" false))).compile = .ok g :=
    rfl
  let halted : MatchState := ⟨s.regs, ⟨{ matchStack := 2 }, 0, 2, 2, some .matchStack⟩⟩
  have attempted : g.attempt t g.entry 0 (s.reset 0) = .ok (none, halted) := by decide +kernel
  obtain ⟨_, _, surfaces⟩ := halt_surfaces ok t
  obtain ⟨inMatch, inSearch⟩ := surfaces 0 (by decide) s none halted .matchStack rfl
  exact ⟨g, ok, by decide +kernel, inMatch attempted, inSearch 0 _ (.first rfl) attempted⟩

end BacktrackRegex
