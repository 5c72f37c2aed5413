import BacktrackRegex.Proofs.Nesting
import BacktrackRegex.Proofs.Simulation
import BacktrackRegex.Search

/-! Compiling keeps the meaning. In a cleared state an attempt of the graph ends as the first way of
the expression does, and so does a match that begins there. -/
namespace BacktrackRegex

namespace Text

theorem checkStart_ok {t : Text} {p : Nat} (valid : t.isBoundary p = true) :
    Graph.checkStart t p = .ok () := by
  have inside := le_size_of_isBoundary valid
  rw [Graph.checkStart, if_neg (by simp [valid, inside])]
  rfl

end Text

theorem Holdings.valid_unset (t : Text) (n : Nat) : Holdings.Valid t (.replicate n none) := by
  intro s member
  cases List.eq_of_mem_replicate member

namespace Fitted

variable {g : Graph} {origin : Nat} {r : Registers}

theorem unset (g : Graph) (origin : Nat) : Fitted g origin (.unset g.slots g.captures origin) := by
  constructor <;> simp [Registers.unset]

theorem clear (fitted : Fitted g origin r) (origin' : Nat) :
    Fitted g origin' (r.clear origin') := by
  constructor <;> simp [Registers.clear, fitted.consumed, fitted.counts, fitted.starts, fitted.ends]

theorem held_clear (fitted : Fitted g origin r) (origin' : Nat) :
    (r.clear origin').held = .replicate (g.captures + 1) none := by
  apply List.ext_getElem (by simp [Registers.held, Registers.clear, fitted.starts, fitted.ends])
  intro i left right
  simp [Registers.held, Registers.clear]

end Fitted

namespace MatchState

variable {g : Graph} {t : Text} {origin : Nat} {s : MatchState}

theorem takeHalt_running (running : s.budget.isHalted = false) : s.takeHalt = (none, s) := by
  have halt : s.budget.halt = none := by simpa [Budget.isHalted] using running
  rw [takeHalt, halt, ← halt]

theorem reset_ready (fitted : Fitted g origin s.regs) (unlimited : s.budget.options.Unlimited)
    (origin' : Nat) : Ready g t origin' (s.reset origin') := by
  refine ⟨fitted.clear origin', ?_, rfl, unlimited⟩
  rw [MatchState.reset, fitted.held_clear origin']
  exact Holdings.valid_unset t _

theorem resetAttempt_ready (fitted : Fitted g origin s.regs) (running : s.budget.isHalted = false)
    (unlimited : s.budget.options.Unlimited) (origin' : Nat) :
    Ready g t origin' (s.resetAttempt origin') := by
  refine ⟨fitted.clear origin', ?_, running, unlimited⟩
  rw [MatchState.resetAttempt, fitted.held_clear origin']
  exact Holdings.valid_unset t _

end MatchState

def Outcome.ofHeld? (t : Text) (held? : Option Holdings) : Outcome :=
  held?.elim .noMatch fun held => .matched ⟨t, held.toArray⟩

/-- What the groups hold after the first way from `p` on, for a search that began at `origin`. -/
def Expr.firstHeld? (e : Expr) (t : Text) (origin p : Nat) : Option Holdings :=
  (e.ways t origin 1 p (.replicate (e.captureCount + 1) none)).head?.map fun (stop, held) =>
    held.set 0 (some ⟨p, stop⟩)

namespace Expr.Compiled

variable {e : Expr} {g : Graph} {t : Text} {origin p : Nat} {s : MatchState}

theorem realizes (compiled : e.Compiled g) : Realizes g t origin (fun _ _ => True) g.entry
    fun (p, held) => (e.ways t origin 1 p held).head? := by
  have checked := compiled.captures ▸ compiled.checked
  have within : 1 + e.captureCount ≤ g.captures + 1 := by
    rw [compiled.captures]
    omega
  simpa only [findSome?_some] using compiled.lowered.realizes compiled.enclosing checked
    (Nat.le_refl _) within (fun _ _ _ => trivial) (end_realizes compiled.succeed (.inl rfl))

theorem attempt_eq (compiled : e.Compiled g) (valid : t.isBoundary p = true)
    (ready : Ready g t origin s) : ∃ stop s', g.attempt t g.entry p s = .ok (stop, s') ∧
      Fitted g origin s'.regs ∧ s'.budget.isHalted = false ∧ s'.budget.options = s.budget.options ∧
      stop.map (·, s'.regs.held) = (e.ways t origin 1 p s.regs.held).head? := by
  have meets := compiled.realizes (g.nestingBound t) p s.regs valid trivial s rfl ready
  match attempted : g.attemptWithin t (g.nestingBound t) g.entry p s, meets with
  | .error fault, meets =>
    exact absurd (attempted.trans (congrArg _ meets))
      (compiled.attemptWithin_shallow (Nat.le_refl _) g.entry p s)
  | .ok (stop, s'), meets =>
    have tidy := attemptWithin_tidy compiled.enclosing _ attempted
    exact ⟨stop, s', attempted, ready.fitted.same tidy.shape,
      tidy.spends.unlimited ready.unlimited ready.running, tidy.spends.options, meets⟩

theorem attemptAt_eq (compiled : e.Compiled g) (valid : t.isBoundary p = true)
    (ready : Ready g t origin s) (cleared : s.regs.held = .replicate (g.captures + 1) none) :
    ∃ s', g.attemptAt t p s = .ok (.ok (.ofHeld? t (e.firstHeld? t origin p)), s') ∧
      Fitted g origin s'.regs ∧ s'.budget.isHalted = false ∧
      s'.budget.options = s.budget.options := by
  obtain ⟨stop, s', attempted, fitted, running, options, way⟩ := compiled.attempt_eq valid ready
  rw [cleared, compiled.captures] at way
  simp only [Graph.attemptAt, attempted, MatchState.takeHalt_running running, bind, Except.bind,
    firstHeld?, ← way]
  cases stop with
  | none => exact ⟨s', rfl, fitted, running, options⟩
  | some stop =>
    have starts : 0 < s'.regs.starts.size := by rw [fitted.starts]; exact Nat.succ_pos _
    have ends : 0 < s'.regs.ends.size := by rw [fitted.ends]; exact Nat.succ_pos _
    simp only [MatchState.setGroup_ok _ _ starts ends]
    refine ⟨{ s' with regs := s'.regs.putGroup 0 (some p) (some stop) }, ?_,
      fitted.same (Registers.sameShape_putGroup _ _ _ _), running, options⟩
    have spans : Captures.ofState t { s' with regs := s'.regs.putGroup 0 (some p) (some stop) } =
        ⟨t, (s'.regs.held.set 0 (some ⟨p, stop⟩)).toArray⟩ := by
      rw [← Registers.held_putGroup, Registers.held, Array.toArray_toList]
      rfl
    rw [spans]
    rfl

theorem matchAt_eq (compiled : e.Compiled g) (valid : t.isBoundary p = true)
    {options : MatchOptions} (unlimited : options.Unlimited) :
    ∃ s', g.matchAt t p (.ofGraph g options) =
      .ok (.ok (.ofHeld? t (e.firstHeld? t p p)), s') := by
  have fitted : Fitted g 0 (MatchState.ofGraph g options).regs := .unset g 0
  obtain ⟨s', matched, _⟩ := compiled.attemptAt_eq valid
    (MatchState.reset_ready fitted unlimited p) (fitted.held_clear p)
  refine ⟨s', ?_⟩
  rw [Graph.matchAt, Text.checkStart_ok valid]
  exact matched

theorem run_eq (compiled : e.Compiled g) (valid : t.isBoundary p = true) {options : MatchOptions}
    (unlimited : options.Unlimited) :
    g.run t p options = .ok (.ok (.ofHeld? t (e.firstHeld? t p p))) := by
  obtain ⟨s', matched⟩ := compiled.matchAt_eq valid unlimited
  rw [Graph.run, matched]
  rfl

end Expr.Compiled

/-- A match that begins at a boundary, with no limits set, ends as the first way does: with what the
groups hold then, or without a match if there is no way. -/
theorem Expr.run_eq_firstWay {e : Expr} {g : Graph} (ok : e.compile = .ok g) {t : Text}
    {start : Nat} (valid : t.isBoundary start = true) {options : MatchOptions}
    (unlimited : options.Unlimited) :
    g.run t start options = .ok (.ok ((e.firstWay? t start).elim .noMatch fun held =>
      .matched ⟨t, held.toArray⟩)) := by
  have compiled := compile_compiled ok
  exact compiled.run_eq valid unlimited

theorem Expr.run_capture_retried : ∃ g, (concat [group .capture (repetition (alternation
      [literal "a" false, literal "ab" false]) 0 none .greedy), literal "c" false,
      backReference 1 false]).compile = .ok g ∧
    g.run ⟨"abcab", by decide⟩ 0 { matchStack := 0, retriesInMatch := 0 } =
      .ok (.ok (.matched ⟨⟨"abcab", by decide⟩, #[some ⟨0, 5⟩, some ⟨0, 2⟩]⟩)) := by
  obtain ⟨g, ok⟩ : ∃ g, (concat [group .capture (repetition (alternation
      [literal "a" false, literal "ab" false]) 0 none .greedy), literal "c" false,
      backReference 1 false]).compile = .ok g := ⟨_, rfl⟩
  exact ⟨g, ok, run_eq_firstWay ok (by decide) ⟨rfl, rfl, rfl, rfl, rfl⟩⟩

end BacktrackRegex
