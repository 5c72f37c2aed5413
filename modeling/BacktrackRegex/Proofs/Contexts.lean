import BacktrackRegex.Proofs.Scan

/-! Exchanging a part of an expression. What an expression matches depends on its parts only through
their ways, so a part may be exchanged for one that has the same ways, wherever it stands. A
non-capturing group has the ways of its body. -/
namespace BacktrackRegex

namespace Expr

inductive Context where
  | here
  | item (before : List Expr) (inner : Context) (after : List Expr)
  | branch (before : List Expr) (inner : Context) (after : List Expr)
  | group (kind : GroupKind) (inner : Context)
  | repetition (inner : Context) (min : Nat) (max : Option Nat) (kind : RepeatKind)

def Context.fill : Context → Expr → Expr
  | here, e => e
  | item before inner after, e => concat (before ++ inner.fill e :: after)
  | branch before inner after, e => alternation (before ++ inner.fill e :: after)
  | group kind inner, e => .group kind (inner.fill e)
  | repetition inner min max kind, e => .repetition (inner.fill e) min max kind

structure Alike (e e' : Expr) : Prop where
  captures : e'.captureCount = e.captureCount
  check : ∀ captures, e'.check captures = e.check captures
  ways : ∀ t origin cap, e'.ways t origin cap = e.ways t origin cap

structure AlikeAll (es es' : List Expr) : Prop where
  captures : captureCountAll es' = captureCountAll es
  check : ∀ captures, checkAll captures es' = checkAll captures es
  row : ∀ t origin cap, waysAll t origin es' cap = waysAll t origin es cap
  branches : ∀ t origin cap, waysAny t origin es' cap = waysAny t origin es cap

theorem AlikeAll.refl (es : List Expr) : AlikeAll es es := by
  constructor <;> intros <;> rfl

theorem AlikeAll.cons {e e' : Expr} {es es' : List Expr} (first : Alike e e')
    (later : AlikeAll es es') : AlikeAll (e :: es) (e' :: es') := by
  constructor
  case captures => simp only [captureCountAll, first.captures, later.captures]
  case check =>
    intro captures
    simp only [checkAll, first.check, later.check]
  case row =>
    intro t origin cap
    funext p held
    simp only [waysAll, first.captures, first.ways, later.row]
  case branches =>
    intro t origin cap
    funext p held
    simp only [waysAny, first.captures, first.ways, later.branches]

theorem AlikeAll.append {es es' : List Expr} (alike : AlikeAll es es') (before : List Expr) :
    AlikeAll (before ++ es) (before ++ es') := by
  induction before with
  | nil => exact alike
  | cons e before ih => exact .cons ⟨rfl, fun _ => rfl, fun _ _ _ => rfl⟩ ih

theorem Alike.fill {e e' : Expr} (alike : Alike e e') (c : Context) :
    Alike (c.fill e) (c.fill e') := by
  induction c with
  | here => exact alike
  | item before inner after ih =>
    have row := (AlikeAll.cons ih (.refl after)).append before
    refine ⟨?_, fun captures => ?_, fun t origin cap => ?_⟩
    · simpa only [Context.fill, Expr.captureCount] using row.captures
    · simpa only [Context.fill, Expr.check] using row.check captures
    · funext p held
      simp only [Context.fill, Expr.ways, row.row]
  | branch before inner after ih =>
    have row := (AlikeAll.cons ih (.refl after)).append before
    refine ⟨?_, fun captures => ?_, fun t origin cap => ?_⟩
    · simpa only [Context.fill, Expr.captureCount] using row.captures
    · simp [Context.fill, Expr.check, row.check captures]
    · funext p held
      simp only [Context.fill, Expr.ways, row.branches]
  | group kind inner ih =>
    refine ⟨?_, fun captures => ?_, fun t origin cap => ?_⟩
    · simp only [Context.fill, Expr.captureCount, ih.captures]
    · simp only [Context.fill, Expr.check, ih.check]
    · funext p held
      cases kind <;> simp only [Context.fill, Expr.ways, ih.ways]
  | repetition inner min max kind ih =>
    refine ⟨?_, fun captures => ?_, fun t origin cap => ?_⟩
    · simp only [Context.fill, Expr.captureCount, ih.captures]
    · cases max <;> simp only [Context.fill, Expr.check, ih.check]
    · funext p held
      simp only [Context.fill, Expr.ways, ih.ways]

theorem Compiled.search_eq {e : Expr} {g : Graph} (compiled : e.Compiled g) {t : Text} {start : Nat}
    (valid : t.isBoundary start = true) {options : MatchOptions} (unlimited : options.Unlimited) :
    g.search t start options =
      .ok (.ok (.ofHeld? t ((t.boundariesFrom start).findSome? (e.firstHeld? t start)))) := by
  obtain ⟨u, scanned⟩ := compiled.scan_ofGraph unlimited start
  exact compiled.search_of_scan valid scanned

def SameMatches (g g' : Graph) : Prop :=
  ∀ {t : Text} {start : Nat} {options : MatchOptions}, t.isBoundary start = true →
    options.Unlimited → g'.run t start options = g.run t start options ∧
      g'.search t start options = g.search t start options

theorem Alike.compile {e e' : Expr} (alike : Alike e e') {g : Graph} (ok : e.compile = .ok g) :
    ∃ g', e'.compile = .ok g' ∧ SameMatches g g' := by
  have compiled := compile_compiled ok
  obtain ⟨g', ok'⟩ := compile_of_check (e := e') (by
    rw [alike.captures, alike.check]
    exact compiled.checked)
  refine ⟨g', ok', fun {t start options} valid unlimited => ?_⟩
  have compiled' := compile_compiled ok'
  have held (origin : Nat) : e'.firstHeld? t origin = e.firstHeld? t origin := by
    funext p
    rw [firstHeld?, firstHeld?, alike.captures, alike.ways]
  rw [compiled'.run_eq valid unlimited, compiled.run_eq valid unlimited,
    compiled'.search_eq valid unlimited, compiled.search_eq valid unlimited, held]
  exact ⟨rfl, rfl⟩

theorem alike_nonCapture (e : Expr) : Alike e (group .nonCapture e) := by
  constructor
  case captures => simp [captureCount]
  case check =>
    intro captures
    rw [check]
  case ways =>
    intro t origin cap
    funext p held
    rw [ways]

/-- A non-capturing group may be put around any part of an expression: it still compiles, and as
long as no limit is set every match and every search ends as before, with the same captures. -/
theorem nonCapture_transparent (c : Context) (e : Expr) {g : Graph}
    (ok : (c.fill e).compile = .ok g) :
    ∃ g', (c.fill (group .nonCapture e)).compile = .ok g' ∧ SameMatches g g' := by
  have alike : Alike (c.fill e) (c.fill (group .nonCapture e)) := (alike_nonCapture e).fill c
  exact alike.compile ok

theorem nonCapture_transparent_backs_off : ∃ g g',
    (concat [group .capture (repetition (literal "a" false) 1 (some 2) .greedy),
      literal "ab" false]).compile = .ok g ∧
    (concat [group .capture (repetition (group .nonCapture (literal "a" false)) 1 (some 2) .greedy),
      literal "ab" false]).compile = .ok g' ∧
    g'.run ⟨"aab", by decide⟩ 0 .unlimited = g.run ⟨"aab", by decide⟩ 0 .unlimited ∧
    g.run ⟨"aab", by decide⟩ 0 .unlimited =
      .ok (.ok (.matched ⟨⟨"aab", by decide⟩, #[some ⟨0, 3⟩, some ⟨0, 1⟩]⟩)) := by
  let c : Context :=
    .item [] (.group .capture (.repetition .here 1 (some 2) .greedy)) [literal "ab" false]
  obtain ⟨g, ok⟩ : ∃ g, (c.fill (literal "a" false)).compile = .ok g := ⟨_, rfl⟩
  obtain ⟨g', ok', same⟩ := nonCapture_transparent c (literal "a" false) ok
  refine ⟨g, g', ok, ok', (same (by decide) MatchOptions.unlimited_free).1, ?_⟩
  exact (compile_compiled ok).run_eq (by decide) MatchOptions.unlimited_free

end Expr

end BacktrackRegex
