import BacktrackRegex.Proofs.Reports

/-! States that are used again. Whatever was done with a state before, it has the registers of its
graph and the options that it was made with. A match clears everything else first, so it ends as in
a state of its own. -/
namespace BacktrackRegex

inductive Operation where
  | attempt (t : Text) (id : NodeId) (p : Nat)
  | matchAt (t : Text) (start : Nat)
  | setConsumed (slot : Nat) (p : Option Nat)
  | setCount (slot n : Nat)
  | setGroup (n : Nat) (start stop : Option Nat)
  | proceed
  | snapshot
  | restore (k : Nat)
  | reset (origin : Nat)

/-- A state that is being used, and the registers at the snapshots that were taken of it. -/
structure Session where
  state : MatchState
  snapshots : List Registers := []
  deriving DecidableEq

namespace Graph

def perform (g : Graph) (x : Session) : Operation → Except Fault Session
  | .attempt t id p => do return { x with state := (← g.attempt t id p x.state).2 }
  | .matchAt t start => do return { x with state := (← g.matchAt t start x.state).2 }
  | .setConsumed slot p => do return { x with state := ← x.state.setConsumed slot p }
  | .setCount slot n => do return { x with state := ← x.state.setCount slot n }
  | .setGroup n start stop => do return { x with state := ← x.state.setGroup n start stop }
  | .proceed => return { x with state := x.state.proceed.2 }
  | .snapshot => return { x with snapshots := x.state.regs :: x.snapshots }
  | .restore k =>
    match x.snapshots[k]? with
    | some regs => return { x with state := { x.state with regs } }
    | none => throw .register
  | .reset origin => return { x with state := x.state.reset origin }

/-- A history of a state: one operation after the other, as long as none leads to a fault. -/
def history (g : Graph) (x : Session) (operations : List Operation) : Except Fault Session :=
  operations.foldlM g.perform x

end Graph

def Graph.Sized (g : Graph) (r : Registers) : Prop := ∃ origin, Fitted g origin r

structure Session.Intact (g : Graph) (options : MatchOptions) (x : Session) : Prop where
  sized : g.Sized x.state.regs
  options : x.state.budget.options = options
  snapshots : ∀ r ∈ x.snapshots, g.Sized r

namespace Graph

variable {g : Graph} {t : Text} {p start : Nat} {s u : MatchState} {verdict : Verdict}
  {options : MatchOptions} {x y : Session} {r : Registers}

theorem Sized.same {r' : Registers} (sized : g.Sized r) (same : r.SameShape r') : g.Sized r' := by
  obtain ⟨origin, fitted⟩ := sized
  exact ⟨origin, fitted.same same⟩

theorem Sized.clear (sized : g.Sized r) (origin : Nat) :
    r.clear origin = .unset g.slots g.captures origin := by
  obtain ⟨_, fitted⟩ := sized
  simp [Registers.clear, Registers.unset, Array.map_const', fitted.consumed, fitted.counts,
    fitted.starts, fitted.ends]

theorem attemptAt_shape (enclosing : g.Enclosing) (ok : g.attemptAt t p s = .ok (verdict, u)) :
    s.regs.SameShape u.regs ∧ u.budget.options = s.budget.options := by
  obtain ⟨stop, after, attempted, ended⟩ := attemptAt_cases ok
  have tidy := attemptWithin_tidy enclosing _ attempted
  obtain ⟨_, _, _, rfl⟩ | ⟨_, _, _, rfl⟩ | ⟨_, _, _, wrote, _⟩ := ended
  · exact ⟨tidy.shape, tidy.spends.options⟩
  · exact ⟨tidy.shape, tidy.spends.options⟩
  · obtain ⟨_, _, rfl⟩ := MatchState.setGroup_success.mp wrote
    exact ⟨tidy.shape.trans (Registers.sameShape_putGroup _ _ _ _), tidy.spends.options⟩

theorem matchAt_intact (enclosing : g.Enclosing) (sized : g.Sized s.regs)
    (ok : g.matchAt t start s = .ok (verdict, u)) :
    g.Sized u.regs ∧ u.budget.options = s.budget.options := by
  unfold matchAt at ok
  split at ok
  · cases ok
    exact ⟨sized, rfl⟩
  · obtain ⟨shape, options⟩ := attemptAt_shape enclosing ok
    obtain ⟨_, fitted⟩ := sized
    exact ⟨⟨_, (fitted.clear start).same shape⟩, options⟩

theorem perform_intact (enclosing : g.Enclosing) (intact : x.Intact g options) {op : Operation}
    (ok : g.perform x op = .ok y) : y.Intact g options := by
  cases op with
  | attempt t id p =>
    obtain ⟨⟨stop, s⟩, attempted, ok⟩ := bind_success ok
    cases ok
    have tidy := attemptWithin_tidy enclosing _ attempted
    exact { intact with
      sized := intact.sized.same tidy.shape, options := tidy.spends.options.trans intact.options }
  | matchAt t start =>
    obtain ⟨⟨verdict, s⟩, matched, ok⟩ := bind_success ok
    cases ok
    have ⟨sized, options⟩ := matchAt_intact enclosing intact.sized matched
    exact { intact with sized := sized, options := options.trans intact.options }
  | setConsumed slot p =>
    obtain ⟨s, wrote, ok⟩ := bind_success ok
    cases ok
    obtain ⟨_, rfl⟩ := MatchState.setConsumed_success.mp wrote
    exact { intact with sized := intact.sized.same (Registers.sameShape_putConsumed _ _ _) }
  | setCount slot n =>
    obtain ⟨s, wrote, ok⟩ := bind_success ok
    cases ok
    obtain ⟨_, rfl⟩ := MatchState.setCount_success.mp wrote
    exact { intact with sized := intact.sized.same (Registers.sameShape_putCount _ _ _) }
  | setGroup n start stop =>
    obtain ⟨s, wrote, ok⟩ := bind_success ok
    cases ok
    obtain ⟨_, _, rfl⟩ := MatchState.setGroup_success.mp wrote
    exact { intact with sized := intact.sized.same (Registers.sameShape_putGroup _ _ _ _) }
  | proceed =>
    cases ok
    obtain ⟨same, polled⟩ := MatchState.proceed_budget (s := x.state) rfl
    exact { intact with
      sized := same ▸ intact.sized
      options := (Budget.poll_spends polled).options.trans intact.options }
  | snapshot =>
    cases ok
    refine { intact with snapshots := fun r member => ?_ }
    obtain rfl | earlier := List.mem_cons.mp member
    · exact intact.sized
    · exact intact.snapshots r earlier
  | restore k =>
    simp only [perform] at ok
    split at ok
    · next regs kept =>
      cases ok
      exact { intact with sized := intact.snapshots regs (List.mem_of_getElem? kept) }
    · cases ok
  | reset origin =>
    cases ok
    obtain ⟨_, fitted⟩ := intact.sized
    exact { intact with sized := ⟨origin, fitted.clear origin⟩ }

theorem history_intact (enclosing : g.Enclosing) {operations : List Operation}
    (intact : x.Intact g options) (ok : g.history x operations = .ok y) : y.Intact g options := by
  induction operations generalizing x with
  | nil =>
    cases ok
    exact intact
  | cons op operations ih =>
    rw [history, List.foldlM_cons] at ok
    obtain ⟨z, performed, ok⟩ := bind_success ok
    exact ih (perform_intact enclosing intact performed) ok

theorem ofGraph_intact (g : Graph) (options : MatchOptions) :
    Session.Intact g options ⟨.ofGraph g options, []⟩ := by
  have sized : g.Sized (MatchState.ofGraph g options).regs := ⟨0, .unset g 0⟩
  exact ⟨sized, rfl, nofun⟩

end Graph

theorem Session.Intact.reset {g : Graph} {options : MatchOptions} {x : Session}
    (intact : x.Intact g options) (origin : Nat) : x.state.reset origin =
      ⟨.unset g.slots g.captures origin, { options }⟩ := by
  rw [MatchState.reset, intact.sized.clear, Budget.clear, intact.options]

theorem Text.checkStart_error {t : Text} {p : Nat} (invalid : t.isBoundary p = false) :
    Graph.checkStart t p = .error (.invalidStart p) := by
  rw [Graph.checkStart, if_pos (.inr invalid)]
  rfl

theorem Graph.attemptAt_unmatched {g : Graph} {t : Text} {p : Nat} {s u : MatchState}
    {verdict : Verdict} (enclosing : g.Enclosing) (ok : g.attemptAt t p s = .ok (verdict, u))
    (unmatched : ∀ captures, verdict ≠ .ok (.matched captures)) :
    u.isHalted = false ∧ u.regs = s.regs := by
  obtain ⟨stop, after, attempted, ended⟩ := attemptAt_cases ok
  have tidy := attemptWithin_tidy enclosing _ attempted
  obtain ⟨cause, halt, _, rfl⟩ | ⟨running, rfl, _, rfl⟩ | ⟨_, _, _, _, same⟩ := ended
  · have halted : after.budget.isHalted = true := by rw [Budget.isHalted, halt]; rfl
    exact ⟨rfl, tidy.restored (tidy.spends.halted halted)⟩
  · exact ⟨running, tidy.restored rfl⟩
  · exact absurd same (unmatched _)

/-- A match in a state that was used before ends as one in a state of its own, whatever the history.
If there is no match, the registers are clear then and there is no halt. An invalid start is
reported and nothing is touched. -/
theorem Expr.reused_as_fresh {e : Expr} {g : Graph} (ok : e.compile = .ok g)
    {options : MatchOptions} {operations : List Operation} {x : Session}
    (used : g.history ⟨.ofGraph g options, []⟩ operations = .ok x) (t : Text) (start : Nat) :
    (t.isBoundary start = true → ∃ verdict s, g.matchAt t start x.state = .ok (verdict, s) ∧
      g.run t start options = .ok verdict ∧
      ((∀ captures, verdict ≠ .ok (.matched captures)) →
        s.isHalted = false ∧ s.regs = .unset g.slots g.captures start)) ∧
    (t.isBoundary start = false →
      g.matchAt t start x.state = .ok (.error (.invalidStart start), x.state)) := by
  have compiled := compile_compiled ok
  have fresh := Graph.ofGraph_intact g options
  have intact := Graph.history_intact compiled.enclosing fresh used
  refine ⟨fun valid => ?_, fun invalid => ?_⟩
  · obtain ⟨_, fitted⟩ := intact.sized
    obtain ⟨verdict, s, matched, _⟩ := compiled.matchAt_answers valid fitted
    have same : g.matchAt t start (.ofGraph g options) = g.matchAt t start x.state := by
      rw [Graph.matchAt, Graph.matchAt, intact.reset, fresh.reset, Text.checkStart_ok valid]
    refine ⟨verdict, s, matched, by rw [Graph.run, same, matched]; rfl, fun unmatched => ?_⟩
    rw [Graph.matchAt, Text.checkStart_ok valid, intact.reset] at matched
    exact Graph.attemptAt_unmatched compiled.enclosing matched unmatched
  · rw [Graph.matchAt, Text.checkStart_error invalid]
    rfl

theorem Expr.reused_after_halt : ∃ g x, (repetition (group .capture (literal "a" false)) 0 none
      .greedy).compile = .ok g ∧
    g.history ⟨.ofGraph g { retriesInMatch := 5 }, []⟩ [.setGroup 1 (some 7) none, .snapshot,
      .attempt ⟨"a", by decide⟩ 1 0, .setCount 0 9, .matchAt ⟨"aa", by decide⟩ 0, .restore 0,
      .attempt ⟨"aa", by decide⟩ 1 0, .setConsumed 1 (some 4)] = .ok x ∧
    x.state.budget.halt = some .retriesInMatch ∧
    (∃ s, g.matchAt ⟨"a", by decide⟩ 0 x.state =
      .ok (.ok (.matched ⟨⟨"a", by decide⟩, #[some ⟨0, 1⟩, some ⟨0, 1⟩]⟩), s)) ∧
    g.matchAt ⟨"é", by decide⟩ 1 x.state = .ok (.error (.invalidStart 1), x.state) := by
  let g : Graph := ⟨#[.succeed, .loop ⟨0, 5, 0, none, true, 0⟩, .loopTail 1, .groupEnd 1 (some 1) 2,
    .literal "a" false 3, .group 1 (some 1) [4] 2], 1, 1, 2, none⟩
  let x : Session := ⟨⟨⟨#[none, some 4], #[0, 0], #[none, some 7], #[none, none], 0⟩,
    ⟨{ retriesInMatch := 5 }, 0, 7, 7, some .retriesInMatch⟩⟩,
    [⟨#[none, none], #[0, 0], #[none, some 7], #[none, none], 0⟩]⟩
  have ok : (repetition (group .capture (literal "a" false)) 0 none .greedy).compile = .ok g := rfl
  have used : g.history ⟨.ofGraph g { retriesInMatch := 5 }, []⟩ [.setGroup 1 (some 7) none,
      .snapshot, .attempt ⟨"a", by decide⟩ 1 0, .setCount 0 9, .matchAt ⟨"aa", by decide⟩ 0,
      .restore 0, .attempt ⟨"aa", by decide⟩ 1 0, .setConsumed 1 (some 4)] = .ok x := by
    decide +kernel
  have run : g.run ⟨"a", by decide⟩ 0 { retriesInMatch := 5 } =
      .ok (.ok (.matched ⟨⟨"a", by decide⟩, #[some ⟨0, 1⟩, some ⟨0, 1⟩]⟩)) := by decide +kernel
  obtain ⟨_, s, matched, same, _⟩ := (reused_as_fresh ok used ⟨"a", by decide⟩ 0).1 (by decide)
  cases run.symm.trans same
  exact ⟨g, x, ok, used, rfl, ⟨s, matched⟩,
    (reused_as_fresh ok used ⟨"é", by decide⟩ 1).2 (by decide)⟩

end BacktrackRegex
