import BacktrackRegex.Proofs.Scan

/-! How attempts end. An attempt of a compiled graph ends, whichever node it visits and whatever the
registers hold, after so many polls at most; if it fails, the registers are as they were. With no
limits set a match and a search end with an outcome. -/
namespace BacktrackRegex

/-- A failed attempt has put back all registers, also those that a commit had kept. -/
theorem Expr.attempt_restores {e : Expr} {g : Graph} (ok : e.compile = .ok g) {t : Text}
    {id : NodeId} {p : Nat} {s s' : MatchState} (failed : g.attempt t id p s = .ok (none, s')) :
    s'.regs = s.regs := by
  have tidy := attemptWithin_tidy (compile_compiled ok).enclosing (g.nestingBound t) failed
  exact tidy.restored rfl

theorem Expr.attempt_restores_commit : ∃ g s', (concat [group .atomic (group .capture
      (literal "a" false)), literal "b" false]).compile = .ok g ∧
    g.attempt ⟨"ac", by decide⟩ g.entry 0
      ⟨⟨#[some 7, none], #[3, 0], #[none, some 9], #[some 8, none], 5⟩, { options := {} }⟩ =
        .ok (none, s') ∧
    s'.regs = ⟨#[some 7, none], #[3, 0], #[none, some 9], #[some 8, none], 5⟩ := by
  let g : Graph := ⟨#[.succeed, .literal "b" false 0, .commit 0, .groupEnd 1 (some 1) 2,
    .literal "a" false 3, .group 1 (some 1) [4] 2, .atomic 0 [5] ⟨⟨1, 2⟩, ⟨1, 2⟩⟩ 1,
    .sequence [6, 1] 0], 7, 1, 2, some 97⟩
  have ok : (concat [group .atomic (group .capture (literal "a" false)),
      literal "b" false]).compile = .ok g := rfl
  have failed : g.attempt ⟨"ac", by decide⟩ g.entry 0
      ⟨⟨#[some 7, none], #[3, 0], #[none, some 9], #[some 8, none], 5⟩, { options := {} }⟩ =
        .ok (none, ⟨⟨#[some 7, none], #[3, 0], #[none, some 9], #[some 8, none], 5⟩,
          ⟨{}, 0, 2, 2, none⟩⟩) := by rfl
  exact ⟨g, _, ok, failed, attempt_restores ok failed⟩

namespace Graph

variable {g : Graph} {t : Text} {origin p : Nat} {s u : MatchState} {verdict : Verdict}

def attemptPolls (g : Graph) (t : Text) : Nat := g.pollBound t (g.nestingBound t)

theorem attemptAt_spends (enclosing : g.Enclosing) (ok : g.attemptAt t p s = .ok (verdict, u)) :
    u.budget.retriesInSearch ≤ s.budget.retriesInSearch + g.attemptPolls t := by
  obtain ⟨stop, after, attempted, ended⟩ := attemptAt_cases ok
  have spent := (attemptWithin_tidy enclosing _ attempted).spends.searched.2
  obtain ⟨_, _, _, rfl⟩ | ⟨_, _, _, rfl⟩ | ⟨_, _, _, wrote, _⟩ := ended
  · exact spent
  · exact spent
  · rw [(Writes.setGroup _ _ _).budget wrote]
    exact spent

theorem searchFrom_spends (enclosing : g.Enclosing) (inside : p ≤ t.size)
    (ok : g.searchFrom t origin p s = .ok (verdict, u)) :
    u.budget.retriesInSearch ≤ s.budget.retriesInSearch +
      (t.size + 1 - p) * g.attemptPolls t := by
  induction left : t.size - p using Nat.strongRecOn generalizing p s with
  | ind left ih =>
  have room : t.size + 1 - p = (t.size - p) + 1 := by omega
  rw [room, Nat.succ_mul]
  obtain ⟨_, _, rfl⟩ | ⟨q, answer, after, found, attempted, ok⟩ := searchFrom_success ok
  · omega
  · have first : after.budget.retriesInSearch ≤
        s.budget.retriesInSearch + g.attemptPolls t :=
      attemptAt_spends (s := s.resetAttempt origin) enclosing attempted
    have more : s.budget.retriesInSearch + g.attemptPolls t ≤
        s.budget.retriesInSearch + ((t.size - p) * g.attemptPolls t +
          g.attemptPolls t) := by omega
    obtain ⟨_, rfl, _⟩ | ⟨rfl, c, read, ok⟩ := searchOn_success ok
    · exact Nat.le_trans first more
    · have less := Text.left_lt_of_charAt (le_of_candidate? found) read
      have fits := Text.le_size_of_isBoundary (Text.charAt_next read).2
      have rest := ih _ (left ▸ less) fits ok rfl
      have fewer := Nat.mul_le_mul_right (g.attemptPolls t)
        (show t.size + 1 - (q + c.utf8Size) ≤ t.size - p by omega)
      omega

end Graph

namespace Expr.Compiled

variable {e : Expr} {g : Graph} {t : Text} {start : Nat} {options : MatchOptions}

theorem matchAt_ends (compiled : e.Compiled g) (valid : t.isBoundary start = true)
    (unlimited : options.Unlimited) : ∃ outcome s,
      g.matchAt t start (.ofGraph g options) = .ok (.ok outcome, s) ∧
        s.budget.retriesInSearch ≤ g.attemptPolls t := by
  obtain ⟨s, matched⟩ := compiled.matchAt_eq valid unlimited
  refine ⟨_, s, matched, ?_⟩
  rw [Graph.matchAt, Text.checkStart_ok valid] at matched
  have spent := Graph.attemptAt_spends compiled.enclosing matched
  rwa [MatchState.reset, Budget.clear, Nat.zero_add] at spent

theorem searchWith_ends (compiled : e.Compiled g) (valid : t.isBoundary start = true)
    (unlimited : options.Unlimited) : ∃ outcome s,
      g.searchWith t start (.ofGraph g options) = .ok (.ok outcome, s) ∧
        s.budget.retriesInSearch ≤ (t.size + 1) * g.attemptPolls t := by
  obtain ⟨u, scanned⟩ := compiled.scan_ofGraph unlimited start
  obtain ⟨s, searched⟩ := compiled.searchWith_of_scan valid scanned
  refine ⟨_, s, searched, ?_⟩
  rw [Graph.searchWith, Text.checkStart_ok valid] at searched
  have inside := Text.le_size_of_isBoundary valid
  have spent := Graph.searchFrom_spends compiled.enclosing inside searched
  calc
    s.budget.retriesInSearch ≤ 0 + (t.size + 1 - start) * g.attemptPolls t := spent
    _ = (t.size + 1 - start) * g.attemptPolls t := Nat.zero_add _
    _ ≤ (t.size + 1) * g.attemptPolls t := Nat.mul_le_mul_right _ (Nat.sub_le _ _)

end Expr.Compiled

/-- Matching ends. No attempt nests deeper than `nestingBound`, so each ends with an answer or with
a fault of its own, and polls a bounded number of times; with no limits set a match and a search
from a boundary end with an outcome. -/
theorem Expr.matching_ends {e : Expr} {g : Graph} (ok : e.compile = .ok g) (t : Text) :
    (∀ depth, g.nestingBound t ≤ depth → ∀ id p s,
      g.attemptWithin t depth id p s ≠ .error .nesting) ∧
    (∀ id p s r s', g.attempt t id p s = .ok (r, s') →
      s'.budget.retriesInSearch ≤ s.budget.retriesInSearch + g.attemptPolls t) ∧
    ∀ start options, t.isBoundary start = true → options.Unlimited →
      (∃ outcome s, g.matchAt t start (.ofGraph g options) = .ok (.ok outcome, s) ∧
        g.run t start options = .ok (.ok outcome) ∧
        s.budget.retriesInSearch ≤ g.attemptPolls t) ∧
      ∃ outcome s, g.searchWith t start (.ofGraph g options) = .ok (.ok outcome, s) ∧
        g.search t start options = .ok (.ok outcome) ∧
        s.budget.retriesInSearch ≤ (t.size + 1) * g.attemptPolls t := by
  have compiled := compile_compiled ok
  refine ⟨fun depth enough id p s => compiled.attemptWithin_shallow enough id p s,
    fun id p s r s' answer => ?_, fun start options valid unlimited => ⟨?_, ?_⟩⟩
  · exact (attemptWithin_tidy compiled.enclosing _ answer).spends.searched.2
  · obtain ⟨outcome, s, matched, spent⟩ := compiled.matchAt_ends valid unlimited
    refine ⟨outcome, s, matched, ?_, spent⟩
    rw [Graph.run, matched]
    rfl
  · obtain ⟨outcome, s, searched, spent⟩ := compiled.searchWith_ends valid unlimited
    refine ⟨outcome, s, searched, ?_, spent⟩
    rw [Graph.search, searched]
    rfl

theorem Expr.empty_loops_end : ∃ g, (repetition (alternation [repetition (group .capture
      (repetition (literal "a" false) 0 none .greedy)) 0 none .greedy, empty]) 0 none
      .greedy).compile = .ok g ∧
    (∀ id p s, g.attempt ⟨"aab", by decide⟩ id p s ≠ .error .nesting) ∧
    ∃ outcome, g.search ⟨"aab", by decide⟩ 0 { matchStack := 0, retriesInMatch := 0 } =
      .ok (.ok outcome) := by
  obtain ⟨g, ok⟩ : ∃ g, (repetition (alternation [repetition (group .capture
      (repetition (literal "a" false) 0 none .greedy)) 0 none .greedy, empty]) 0 none
      .greedy).compile = .ok g := ⟨_, rfl⟩
  obtain ⟨shallow, _, ends⟩ := matching_ends ok ⟨"aab", by decide⟩
  obtain ⟨_, outcome, _, _, searched, _⟩ := ends 0 { matchStack := 0, retriesInMatch := 0 }
    (by decide) ⟨rfl, rfl, rfl, rfl, rfl⟩
  exact ⟨g, ok, shallow _ (Nat.le_refl _), outcome, searched⟩

end BacktrackRegex
