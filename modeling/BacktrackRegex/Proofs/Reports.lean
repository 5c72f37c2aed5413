import BacktrackRegex.Proofs.Safety
import BacktrackRegex.Proofs.Scan

/-! What matching reports. Under any limits a match and a search that begin at a boundary give an
answer and no fault. The spans they report lie on boundaries, in order and inside the match; only a
capture inside a lookahead may end after it. -/
namespace BacktrackRegex

/-- Spans of the match from `start` to `stop`: one for the whole match and one for each capture
group that took part. -/
structure Captures.Within (captures : Captures) (e : Expr) (t : Text) (start stop : Nat) :
    Prop where
  text : captures.text = t
  sized : captures.spans.size = e.captureCount + 1
  whole : captures.spans[0]? = some (some ⟨start, stop⟩)
  piece : ∀ (n : Nat) s, captures.spans[n]? = some (some s) → t.Piece s
  later : ∀ (n : Nat) s, captures.spans[n]? = some (some s) → start ≤ s.start ∧ s.stop ≤ t.size
  inside : ∀ (n : Nat) s, captures.spans[n]? = some (some s) → e.inLookAhead n 1 = false →
    s.stop ≤ stop

def Expr.Reports (e : Expr) (t : Text) (start : Nat) (verdict : Verdict) : Prop :=
  ∀ captures, verdict = .ok (.matched captures) →
    ∃ p stop, start ≤ p ∧ captures.Within e t p stop

theorem Expr.Reports.earlier {e : Expr} {t : Text} {p q : Nat} {verdict : Verdict} (le : p ≤ q)
    (reports : e.Reports t q verdict) : e.Reports t p verdict := by
  intro captures found
  obtain ⟨begun, stop, later, within⟩ := reports captures found
  exact ⟨begun, stop, Nat.le_trans le later, within⟩

/-- An answer and no fault. After a match the registers of each group are both set or both unset. -/
def Expr.Answers (e : Expr) (t : Text) (start : Nat) (x : Except Fault (Verdict × MatchState)) :
    Prop :=
  ∃ verdict s, x = .ok (verdict, s) ∧ e.Reports t start verdict ∧
    ∀ captures, verdict = .ok (.matched captures) → s.regs.Paired

namespace Course

variable {c : Course}

theorem sound_clear {origin : Nat} {r : Registers} (fitted : Fitted c.g origin r)
    (valid : c.t.isBoundary c.start = true) : c.Sound c.start (r.clear c.origin) := by
  constructor
  case fitted => exact fitted.clear c.origin
  case paired =>
    intro n
    have unset (file : Array (Option Nat)) : (file.map fun _ => (none : Option Nat))[n]?.join =
        none := by
      rw [Array.getElem?_map]
      cases file[n]? <;> rfl
    simp only [Registers.clear, unset]
  case boundary => exact valid
  case later => exact Nat.le_refl _
  case pieces =>
    intro n s found
    rw [fitted.held_clear, List.getElem?_replicate] at found
    split at found <;> cases found

theorem Sound.within {e : Expr} {s : MatchState} {stop : Nat} (sound : c.Sound stop s.regs)
    (captures : c.g.captures = e.captureCount) (ahead : ∀ n, c.ahead n → e.inLookAhead n 1 = true)
    (whole : s.regs.held[0]? = some (some ⟨c.start, stop⟩)) :
    (Captures.ofState c.t s).Within e c.t c.start stop := by
  have same (n : Nat) : (Captures.ofState c.t s).spans[n]? = s.regs.held[n]? := by
    rw [Registers.held, Array.getElem?_toList]
    rfl
  refine ⟨rfl, ?_, same 0 ▸ whole, ?_, ?_, ?_⟩
  · simp [Captures.ofState, sound.fitted.starts, sound.fitted.ends, captures]
  · intro n s found
    exact (sound.pieces (same n ▸ found)).toPiece
  · intro n s found
    have piece := sound.pieces (same n ▸ found)
    exact ⟨piece.later, Text.le_size_of_isBoundary piece.stop⟩
  · intro n s found outside
    refine (sound.pieces (same n ▸ found)).within.resolve_right fun inside => ?_
    rw [ahead n inside] at outside
    cases outside

end Course

namespace Expr.Compiled

variable {e : Expr} {g : Graph} {t : Text} {origin before p : Nat} {s : MatchState}

def course (_ : e.Compiled g) (t : Text) (origin start : Nat) : Course :=
  ⟨g, t, origin, start, fun n => e.inLookAhead n 1 = true⟩

theorem attemptWithin_endures (compiled : e.Compiled g) (depth : Nat)
    (sound : (compiled.course t origin p).Sound p s.regs) :
    (compiled.course t origin p).Endures (g.attemptWithin t depth g.entry p s) := by
  let c := compiled.course t origin p
  have within : 1 + e.captureCount ≤ g.captures + 1 := by
    rw [compiled.captures]
    omega
  have safe : c.Safe (fun _ _ => True) c.g.entry :=
    Course.lowered_safe (c := c) compiled.enclosing compiled.lowered
      (compiled.captures ▸ compiled.checked) (Nat.le_refl _) within (fun n inside => inside)
      (fun _ _ _ => trivial) (Course.end_safe compiled.succeed (.inl rfl))
  exact safe depth p s.regs trivial s rfl sound

theorem attemptWithin_fault (compiled : e.Compiled g) {depth : Nat} {fault : Fault}
    (sound : (compiled.course t origin p).Sound p s.regs)
    (failed : g.attemptWithin t depth g.entry p s = .error fault) : fault = .nesting := by
  have endures := compiled.attemptWithin_endures depth sound
  rw [failed] at endures
  exact endures

theorem attempt_safe (compiled : e.Compiled g)
    (sound : (compiled.course t origin p).Sound p s.regs) :
    ∃ stop s', g.attempt t g.entry p s = .ok (stop, s') ∧ Fitted g origin s'.regs ∧
      ∀ q, stop = some q → t.Reaches p q ∧ (compiled.course t origin p).Sound q s'.regs := by
  have endures := compiled.attemptWithin_endures (g.nestingBound t) sound
  cases attempted : g.attemptWithin t (g.nestingBound t) g.entry p s with
  | error fault =>
    cases compiled.attemptWithin_fault sound attempted
    exact absurd attempted (compiled.attemptWithin_shallow (Nat.le_refl _) g.entry p s)
  | ok answer =>
    obtain ⟨stop, s'⟩ := answer
    have tidy := attemptWithin_tidy compiled.enclosing _ attempted
    refine ⟨stop, s', attempted, sound.fitted.same tidy.shape, fun q found => ?_⟩
    subst found
    rw [attempted] at endures
    exact ⟨tidy.forward q rfl, endures⟩

theorem attemptAt_reports (compiled : e.Compiled g) (valid : t.isBoundary p = true)
    {r : Registers} (fitted : Fitted g before r) (cleared : s.regs = r.clear origin) :
    ∃ verdict u, g.attemptAt t p s = .ok (verdict, u) ∧ Fitted g origin u.regs ∧
      e.Reports t p verdict ∧ ∀ captures, verdict = .ok (.matched captures) → u.regs.Paired := by
  have sound : (compiled.course t origin p).Sound p s.regs :=
    cleared ▸ Course.sound_clear (c := compiled.course t origin p) fitted valid
  obtain ⟨stop, s', attempted, fitted', kept⟩ := compiled.attempt_safe sound
  simp only [Graph.attemptAt, attempted, MatchState.takeHalt, bind, Except.bind]
  cases s'.budget.halt with
  | some cause => exact ⟨_, _, rfl, fitted', by rintro _ ⟨⟩, by rintro _ ⟨⟩⟩
  | none =>
    cases stop with
    | none => exact ⟨_, _, rfl, fitted', by rintro _ ⟨⟩, by rintro _ ⟨⟩⟩
    | some q =>
      obtain ⟨reaches, sound'⟩ := kept q rfl
      have starts : 0 < s'.regs.starts.size := by rw [fitted'.starts]; exact Nat.succ_pos _
      have ends : 0 < s'.regs.ends.size := by rw [fitted'.ends]; exact Nat.succ_pos _
      have wrote := MatchState.setGroup_ok (s := ⟨s'.regs, { s'.budget with halt := none }⟩)
        (some p) (some q) starts ends
      have last : (compiled.course t origin p).Sound q (s'.regs.putGroup 0 (some p) (some q)) :=
        sound'.putGroup (Nat.zero_le _) valid (Nat.le_refl p) reaches
      have whole : (s'.regs.putGroup 0 (some p) (some q)).held[0]? = some (some ⟨p, q⟩) := by
        rw [Registers.held_putGroup, List.getElem?_set_self]
        simp [Registers.held, fitted'.starts, fitted'.ends]
      simp only [wrote]
      refine ⟨_, _, rfl, last.fitted, ?_, fun _ _ => last.paired⟩
      rintro _ ⟨⟩
      exact ⟨p, q, Nat.le_refl p, last.within (s := ⟨_, { s'.budget with halt := none }⟩)
        compiled.captures (fun n inside => inside) whole⟩

theorem matchAt_answers (compiled : e.Compiled g) (valid : t.isBoundary p = true)
    (fitted : Fitted g before s.regs) : e.Answers t p (g.matchAt t p s) := by
  obtain ⟨verdict, u, attempted, _, reports⟩ :=
    compiled.attemptAt_reports (s := s.reset p) valid fitted rfl
  exact ⟨verdict, u, by rw [Graph.matchAt, Text.checkStart_ok valid]; exact attempted, reports⟩

theorem searchFrom_answers (compiled : e.Compiled g) (valid : t.isBoundary p = true)
    (fitted : Fitted g before s.regs) : e.Answers t p (g.searchFrom t origin p s) := by
  -- On the text that is left: a failed attempt moves on by a character.
  induction left : t.size - p using Nat.strongRecOn generalizing before p s with
  | ind left ih =>
  cases found : g.candidate? t p with
  | none => exact ⟨_, s, Graph.searchFrom_none found, by rintro _ ⟨⟩, by rintro _ ⟨⟩⟩
  | some q =>
    have there := (Graph.candidate?_some compiled.leadByte valid found).1
    have low := Graph.le_of_candidate? found
    obtain ⟨verdict, u, attempted, fitted', reports, paired⟩ :=
      compiled.attemptAt_reports (s := s.resetAttempt origin) there fitted rfl
    rw [Graph.searchFrom_some found attempted]
    match verdict with
    | .error e => exact ⟨_, u, rfl, by rintro _ ⟨⟩, by rintro _ ⟨⟩⟩
    | .ok (.matched captures) => exact ⟨_, u, rfl, reports.earlier low, paired⟩
    | .ok .noMatch =>
      obtain ⟨read, here⟩ := Text.charAt_ok there
      rw [Graph.searchOn, here]
      cases read with
      | none => exact ⟨_, u, rfl, by rintro _ ⟨⟩, by rintro _ ⟨⟩⟩
      | some c =>
        have less := Text.left_lt_of_charAt low here
        obtain ⟨verdict, last, searched, reports, paired⟩ :=
          ih _ (left ▸ less) (Text.charAt_next here).2 fitted' rfl
        exact ⟨verdict, last, searched, reports.earlier (by omega), paired⟩

theorem searchWith_answers (compiled : e.Compiled g) (valid : t.isBoundary p = true)
    (fitted : Fitted g before s.regs) : e.Answers t p (g.searchWith t p s) := by
  rw [Graph.searchWith, Text.checkStart_ok valid]
  exact compiled.searchFrom_answers valid fitted

end Expr.Compiled

/-- From a boundary, matching and searching give an answer and no fault, whatever the limits, in
every state that has the registers of the graph. The spans of a match are pieces of the text that
lie within it; only captures inside lookaheads may end after it. -/
theorem Expr.matching_safe {e : Expr} {g : Graph} (ok : e.compile = .ok g) {t : Text} {start : Nat}
    (valid : t.isBoundary start = true) :
    (∀ before s, Fitted g before s.regs → e.Answers t start (g.matchAt t start s) ∧
      e.Answers t start (g.searchWith t start s)) ∧
    ∀ options, (∃ verdict, g.run t start options = .ok verdict ∧ e.Reports t start verdict) ∧
      ∃ verdict, g.search t start options = .ok verdict ∧ e.Reports t start verdict := by
  have compiled := compile_compiled ok
  refine ⟨fun before s fitted => ⟨compiled.matchAt_answers valid fitted,
    compiled.searchWith_answers valid fitted⟩, fun options => ⟨?_, ?_⟩⟩
  · obtain ⟨verdict, s, matched, reports, _⟩ := compiled.matchAt_answers valid
      (s := .ofGraph g options) (.unset g 0)
    exact ⟨verdict, by rw [Graph.run, matched]; rfl, reports⟩
  · obtain ⟨verdict, s, searched, reports, _⟩ := compiled.searchWith_answers valid
      (s := .ofGraph g options) (.unset g 0)
    exact ⟨verdict, by rw [Graph.search, searched]; rfl, reports⟩

theorem Expr.lookAhead_reports : ∃ g, (concat [group .lookAhead (group .capture
      (literal "aé" false)), group .capture (literal "A" true)]).compile = .ok g ∧
    g.search ⟨"xaé", by decide⟩ 0 {} = .ok (.ok (.matched
      ⟨⟨"xaé", by decide⟩, #[some ⟨1, 2⟩, some ⟨1, 4⟩, some ⟨1, 2⟩]⟩)) ∧
    ∃ p stop, Captures.Within ⟨⟨"xaé", by decide⟩, #[some ⟨1, 2⟩, some ⟨1, 4⟩, some ⟨1, 2⟩]⟩
      (concat [group .lookAhead (group .capture (literal "aé" false)),
        group .capture (literal "A" true)]) ⟨"xaé", by decide⟩ p stop := by
  let t : Text := ⟨"xaé", by decide⟩
  let g : Graph := ⟨#[.succeed, .groupEnd 0 (some 2) 0, .literal "A" true 1,
    .group 0 (some 2) [2] 0, .commit 1, .groupEnd 2 (some 1) 4, .literal "aé" false 5,
    .group 2 (some 1) [6] 4, .lookAhead 1 false [7] ⟨⟨1, 2⟩, ⟨2, 3⟩⟩ 3, .sequence [8, 3] 0],
    9, 2, 3, none⟩
  have ok : (concat [group .lookAhead (group .capture (literal "aé" false)),
      group .capture (literal "A" true)]).compile = .ok g := rfl
  have found : g.search t 0 {} = .ok (.ok (.matched ⟨t, #[some ⟨1, 2⟩, some ⟨1, 4⟩,
      some ⟨1, 2⟩]⟩)) := by decide +kernel
  obtain ⟨_, verdict, searched, reports⟩ :=
    (matching_safe ok (t := t) (by decide : t.isBoundary 0 = true)).2 {}
  cases found.symm.trans searched
  obtain ⟨p, stop, _, within⟩ := reports _ rfl
  exact ⟨g, ok, found, p, stop, within⟩

end BacktrackRegex
