import BacktrackRegex.Proofs.Liveness
import BacktrackRegex.Proofs.Reports

/-! Matching behind other text. Without anchors that look back, what stands before the start does
not count: a match or search that begins as many bytes further on takes the same course, trips the
same limits and finds the same, as many bytes further on. -/
namespace BacktrackRegex

theorem Registers.clear_abreast {g : Graph} {before before' : Nat} {r r' : Registers}
    (fitted : Fitted g before r) (fitted' : Fitted g before' r') (n origin : Nat) :
    (r.clear origin).Abreast n .nothing (r'.clear (n + origin)) := by
  constructor
  case begun => exact fun _ => False.elim
  case counted => exact fun _ => False.elim
  case starts => simp [clear, Array.map_const', fitted.starts, fitted'.starts]
  case ends => simp [clear, Array.map_const', fitted.ends, fitted'.ends]
  case origin => exact rfl

theorem Captures.ofState_shift {n : Nat} {live : Live} {t t' : Text} {s s' : MatchState}
    (abreast : s.Abreast n live s') :
    Captures.ofState t' s' = (Captures.ofState t s).shift n t' := by
  simp only [ofState, shift, abreast.regs.starts, abreast.regs.ends, mk.injEq, true_and]
  apply Array.ext_getElem?
  intro i
  simp only [Array.getElem?_zipWith, Array.getElem?_map]
  rcases s.regs.starts[i]? with _ | _ | _ <;> rcases s.regs.ends[i]? with _ | _ | _ <;> rfl

namespace Expr.Compiled

variable {e : Expr} {g : Graph} {n p before before' : Nat} {t t' : Text}
variable {s s' u u' : MatchState} {verdict verdict' : Verdict}

theorem attemptAt_shift (compiled : e.Compiled g) (displaced : t.Displaced n t')
    (blind : e.every (!·.looksBack) = true) (valid : t.isBoundary p = true)
    (abreast : s.Abreast n .nothing s') (ok : g.attemptAt t p s = .ok (verdict, u))
    (ok' : g.attemptAt t' (n + p) s' = .ok (verdict', u')) :
    verdict' = verdict.map (·.shift n t') ∧ u'.budget = u.budget := by
  obtain ⟨⟨stop, after⟩, attempted, ok⟩ := bind_success ok
  obtain ⟨⟨stop', after'⟩, attempted', ok'⟩ := bind_success ok'
  have same := compiled.attempt_inStep displaced (.inr blind) valid s s' abreast _ _ attempted
    attempted'
  have budget : after'.budget = after.budget := same.stop.2
  simp only [MatchState.takeHalt] at ok ok'
  rw [budget] at ok'
  cases halt : after.budget.halt with
  | some cause =>
    rw [halt] at ok ok'
    cases ok
    cases ok'
    exact ⟨rfl, rfl⟩
  | none =>
    rw [halt] at ok ok'
    cases stop with
    | none =>
      obtain rfl : stop' = none := same.stop.1
      cases ok
      cases ok'
      exact ⟨rfl, rfl⟩
    | some q =>
      obtain rfl : stop' = some (n + q) := same.stop.1
      obtain ⟨_, wrote, ok⟩ := bind_success ok
      obtain ⟨_, wrote', ok'⟩ := bind_success ok'
      cases ok
      cases ok'
      have taken : MatchState.Abreast n .nothing ⟨after.regs, { after.budget with halt := none }⟩
          ⟨after'.regs, { after.budget with halt := none }⟩ := ⟨same.2.regs, rfl⟩
      have last := taken.setGroup wrote wrote'
      exact ⟨by rw [Captures.ofState_shift (t := t) last]; rfl, last.budget⟩

theorem candidate?_shift (displaced : t.Displaced n t') (p : Nat) :
    g.candidate? t' (n + p) = (g.candidate? t p).map (n + ·) := by
  unfold Graph.candidate?
  split
  · exact displaced.findByte _ p
  · rfl

theorem matchAt_shift (compiled : e.Compiled g) (displaced : t.Displaced n t')
    (blind : e.every (!·.looksBack) = true) (valid : t.isBoundary p = true)
    (fitted : Fitted g before s.regs) (fitted' : Fitted g before' s'.regs)
    (options : s'.budget.options = s.budget.options) :
    ∃ verdict u u', g.matchAt t p s = .ok (verdict, u) ∧
      g.matchAt t' (n + p) s' = .ok (verdict.map (·.shift n t'), u') := by
  have valid' : t'.isBoundary (n + p) = true := displaced.isBoundary p ▸ valid
  obtain ⟨verdict, u, matched, _⟩ := compiled.matchAt_answers valid fitted
  obtain ⟨verdict', u', matched', _⟩ := compiled.matchAt_answers valid' fitted'
  have cleared : (s.reset p).Abreast n .nothing (s'.reset (n + p)) :=
    ⟨Registers.clear_abreast fitted fitted' n p, by simp [MatchState.reset, Budget.clear, options]⟩
  refine ⟨verdict, u, u', matched, ?_⟩
  rw [Graph.matchAt, Text.checkStart_ok valid] at matched
  have attempted' := matched'
  rw [Graph.matchAt, Text.checkStart_ok valid'] at attempted'
  obtain ⟨same, _⟩ := compiled.attemptAt_shift displaced blind valid cleared matched attempted'
  rw [matched', same]

theorem searchFrom_shift (compiled : e.Compiled g) (displaced : t.Displaced n t')
    (blind : e.every (!·.looksBack) = true) (valid : t.isBoundary p = true)
    (fitted : Fitted g before s.regs) (fitted' : Fitted g before' s'.regs)
    (budget : s'.budget = s.budget) (origin : Nat) :
    ∃ verdict u u', g.searchFrom t origin p s = .ok (verdict, u) ∧
      g.searchFrom t' (n + origin) (n + p) s' = .ok (verdict.map (·.shift n t'), u') := by
  induction left : t.size - p using Nat.strongRecOn generalizing before before' p s s' with
  | ind left ih =>
  have candidate := candidate?_shift (g := g) displaced p
  cases found : g.candidate? t p with
  | none =>
    rw [found, Option.map_none] at candidate
    exact ⟨_, s, s', Graph.searchFrom_none found, Graph.searchFrom_none candidate⟩
  | some q =>
    rw [found, Option.map_some] at candidate
    have low := Graph.le_of_candidate? found
    have there := (Graph.candidate?_some compiled.leadByte valid found).1
    have there' : t'.isBoundary (n + q) = true := displaced.isBoundary q ▸ there
    obtain ⟨verdict, u, attempted, kept, _⟩ :=
      compiled.attemptAt_reports (s := s.resetAttempt origin) there fitted rfl
    obtain ⟨verdict', u', attempted', kept', _⟩ :=
      compiled.attemptAt_reports (s := s'.resetAttempt (n + origin)) there' fitted' rfl
    have cleared : (s.resetAttempt origin).Abreast n .nothing (s'.resetAttempt (n + origin)) :=
      ⟨Registers.clear_abreast fitted fitted' n origin, by simp [MatchState.resetAttempt, budget]⟩
    obtain ⟨rfl, spent⟩ := compiled.attemptAt_shift displaced blind there cleared attempted
      attempted'
    rw [Graph.searchFrom_some found attempted, Graph.searchFrom_some candidate attempted']
    rcases verdict with e | captures | _
    · exact ⟨_, u, u', rfl, rfl⟩
    · exact ⟨_, u, u', rfl, rfl⟩
    · obtain ⟨read, here⟩ := Text.charAt_ok there
      have here' := (displaced.charAt q).trans here
      have unmatched : Except.map (·.shift n t') (.ok .noMatch : Verdict) = .ok .noMatch := rfl
      simp only [unmatched, Graph.searchOn, here, here']
      cases read with
      | none => exact ⟨_, u, u', rfl, rfl⟩
      | some c =>
        have less := Text.left_lt_of_charAt low here
        have further := ih _ (left ▸ less) (Text.charAt_next here).2 kept kept' spent rfl
        simpa only [Nat.add_assoc] using further

end Expr.Compiled

namespace Expr

/-- Text put before a text that is matched from a boundary on changes nothing but the offsets,
unless an anchor looks back at it: matching and searching give the same answer with every span as
many bytes further on, find nothing as before or are given up for the same cause. -/
theorem matching_shifts {e : Expr} {g : Graph} (ok : e.compile = .ok g)
    (blind : e.every (!·.looksBack) = true) {x : String} {t t' : Text}
    (joined : t'.string = x ++ t.string) {p : Nat} (valid : t.isBoundary p = true)
    (options : MatchOptions) :
    (∃ verdict, g.run t p options = .ok verdict ∧
      g.run t' (x.utf8ByteSize + p) options = .ok (verdict.map (·.shift x.utf8ByteSize t'))) ∧
    ∃ verdict, g.search t p options = .ok verdict ∧
      g.search t' (x.utf8ByteSize + p) options =
        .ok (verdict.map (·.shift x.utf8ByteSize t')) := by
  have compiled := compile_compiled ok
  have displaced : t.Displaced x.utf8ByteSize t' := ⟨x, rfl, joined⟩
  have valid' : t'.isBoundary (x.utf8ByteSize + p) = true := displaced.isBoundary p ▸ valid
  have fitted : Fitted g 0 (MatchState.ofGraph g options).regs := .unset g 0
  constructor
  · obtain ⟨verdict, u, u', matched, matched'⟩ :=
      compiled.matchAt_shift displaced blind valid fitted fitted rfl
    exact ⟨verdict, by rw [Graph.run, matched]; rfl, by rw [Graph.run, matched']; rfl⟩
  · obtain ⟨verdict, u, u', searched, searched'⟩ := compiled.searchFrom_shift
      displaced blind valid fitted fitted rfl p
    exact ⟨verdict, by rw [Graph.search, Graph.searchWith, Text.checkStart_ok valid, searched]; rfl,
      by rw [Graph.search, Graph.searchWith, Text.checkStart_ok valid', searched']; rfl⟩

theorem matching_shifts_capture : ∃ g, (concat [anchor .startPosition,
      repetition (literal "-" false) 0 none .reluctant, group .capture (literal "ab" false),
      group .lookAhead (concat [backReference 1 false, anchor .endLine])]).compile = .ok g ∧
    g.search ⟨"-abab\n", by decide⟩ 0 {} = .ok (.ok (.matched
      ⟨⟨"-abab\n", by decide⟩, #[some ⟨0, 3⟩, some ⟨1, 3⟩]⟩)) ∧
    g.search ⟨"é-abab\n", by decide⟩ 2 {} = .ok (.ok (.matched
      ⟨⟨"é-abab\n", by decide⟩, #[some ⟨2, 5⟩, some ⟨3, 5⟩]⟩)) ∧
    g.run ⟨"é-abab\n", by decide⟩ 2 { retriesInMatch := 3 } =
      .ok (.error (.halted .retriesInMatch)) := by
  let t : Text := ⟨"-abab\n", by decide⟩
  let t' : Text := ⟨"é-abab\n", by decide⟩
  let g : Graph := ⟨#[.succeed, .commit 0, .anchor .endLine 1, .backReference 1 false 2,
    .sequence [3, 2] 1, .lookAhead 0 false [4] ⟨⟨2, 2⟩, ⟨1, 1⟩⟩ 0, .groupEnd 1 (some 1) 5,
    .literal "ab" false 6, .group 1 (some 1) [7] 5, .literal "-" false 0,
    .leafLoop 9 0 none false 8, .anchor .startPosition 10, .sequence [11, 10, 8, 5] 0], 12, 1, 2,
    none⟩
  have ok : (concat [anchor .startPosition, repetition (literal "-" false) 0 none .reluctant,
      group .capture (literal "ab" false), group .lookAhead (concat [backReference 1 false,
        anchor .endLine])]).compile = .ok g := by decide +kernel
  have found : g.search t 0 {} = .ok (.ok (.matched ⟨t, #[some ⟨0, 3⟩, some ⟨1, 3⟩]⟩)) := by
    decide +kernel
  have halted : g.run t 0 { retriesInMatch := 3 } = .ok (.error (.halted .retriesInMatch)) := by
    decide +kernel
  have joined : t'.string = "é" ++ t.string := by decide +kernel
  have valid : t.isBoundary 0 = true := by decide
  obtain ⟨_, _, searched, searched'⟩ := matching_shifts ok (by decide) joined valid {}
  obtain ⟨⟨_, matched, matched'⟩, _⟩ :=
    matching_shifts ok (by decide) joined valid { retriesInMatch := 3 }
  cases found.symm.trans searched
  cases halted.symm.trans matched
  have width : "é".utf8ByteSize = 2 := by decide +kernel
  rw [width] at searched' matched'
  exact ⟨g, ok, found, searched'.trans (by decide +kernel), matched'⟩

end Expr

end BacktrackRegex
