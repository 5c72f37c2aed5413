import BacktrackRegex.Proofs.Agreement
import BacktrackRegex.Proofs.Tried
import BacktrackRegex.Proofs.WellFormed

/-! Graphs without loops. Repetitions of a single leaf are matched in place, so that without other
repetitions every visit leads down the arena. However long the text, no more visits are open at once
than the graph has nodes. -/
namespace BacktrackRegex

namespace Graph

/-- No repetition of the expression became a loop. -/
def Flat (g : Graph) : Prop := ∀ l, Node.loop l ∉ g.nodes

variable {g : Graph} {t : Text} {e : Expr} {id : Nat} {n : Node}

theorem Flat.not_loop (flat : g.Flat) (l : Loop) : g.nodes[id]? ≠ some (.loop l) := by
  intro node
  exact flat l (Array.mem_of_getElem? node)

theorem WellFormed.links_lt (wellFormed : g.WellFormed e) (flat : g.Flat)
    (node : g.nodes[id]? = some n) : ∀ m ∈ g.links n, m < id := by
  have below := wellFormed.refs node
  intro m member
  -- Only loops and their tails lead up the arena, to the body.
  cases n with
  | loop l => exact absurd node (flat.not_loop l)
  | loopTail owner =>
    obtain ⟨l, owned⟩ := wellFormed.tailOwner node
    exact absurd owned (flat.not_loop l)
  | sequence children next =>
    refine below m ?_
    cases children <;> simp_all [links, Node.refs]
  | _ => exact below m (by simp_all [links, Node.refs, Node.next?])

theorem WellFormed.attemptWithin_eq (wellFormed : g.WellFormed e) (flat : g.Flat)
    (enclosing : g.Enclosing) {k k' : Nat} (enough : id < g.size → id ≤ k)
    (enough' : id < g.size → id ≤ k') (p : Nat) (s : MatchState) :
    g.attemptWithin t (k' + 1) id p s = g.attemptWithin t (k + 1) id p s := by
  -- On the place of the node in the arena: without loops every link leads down.
  induction id using Nat.strongRecOn generalizing k k' p s with
  | ind id ih =>
  have tidies : Tidies g t _ (g.attemptWithin t k) := attemptWithin_tidy enclosing k
  rw [attemptWithin_succ, attemptWithin_succ]
  refine (Concur.opened (Ψ := fun _ _ => True) fun s' same =>
    visitNode_concur_of (fun n node => ?_) s' same).same
  have inside : id < g.size := (Array.getElem?_eq_some_iff.mp node).1
  refine visitNode_concur enclosing tidies node n.keeps_nothing (fun m member q r _ s'' _ => ?_)
    trivial
  have lower := wellFormed.links_lt flat node m member
  have room := Nat.lt_of_lt_of_le lower (enough inside)
  have room' := Nat.lt_of_lt_of_le lower (enough' inside)
  obtain ⟨k, rfl⟩ := Nat.exists_eq_succ_of_ne_zero (Nat.ne_of_gt (Nat.zero_lt_of_lt room))
  obtain ⟨k', rfl⟩ := Nat.exists_eq_succ_of_ne_zero (Nat.ne_of_gt (Nat.zero_lt_of_lt room'))
  exact ⟨ih m lower (fun _ => Nat.le_of_lt_succ room) (fun _ => Nat.le_of_lt_succ room') q s'',
    fun _ _ _ => trivial⟩

end Graph

namespace Budget

variable {b c : Budget} {may : Bool}

theorem overdrawn?_ne_matchStack (b : Budget) : b.overdrawn? ≠ some .matchStack := by
  unfold overdrawn? MatchOptions.interrupt?
  repeat' split
  all_goals simp

theorem overdrawn?_withOptions {o : MatchOptions} {limit : Nat}
    (same : b.options = { o with matchStack := limit }) :
    (b.withOptions o).overdrawn? = b.overdrawn? := by
  rw [overdrawn?, overdrawn?, same]
  rfl

end Budget

theorem attemptWithin_unstacked {g : Graph} {t : Text} {k id p : Nat} {s u : MatchState}
    {r : Option Nat} (free : s.budget.options.matchStack = 0) (running : s.isHalted = false)
    (ok : g.attemptWithin t k id p s = .ok (r, u)) : u.budget.halt ≠ some .matchStack := by
  intro tripped
  have same := (attemptWithin_leadsTo ok).options
  have before := attemptWithin_before
    (E := fun b => b.options.matchStack = 0 ∧ b.halt = some .matchStack) ?_ ?_ (fun held => held) ok
    ⟨same ▸ free, tripped⟩
  · rw [MatchState.isHalted, Budget.isHalted, before.2] at running
    cases running
  · rintro b c may polled ⟨free, tripped⟩
    obtain ⟨_, _, rfl⟩ | ⟨_, _, _, rfl⟩ | ⟨_, cause, overdrawn, _, rfl⟩ := Budget.poll_cases polled
    · exact ⟨free, tripped⟩
    · exact ⟨free, tripped⟩
    · cases tripped
      exact absurd overdrawn (Budget.overdrawn?_ne_matchStack _)
  · rintro b c may entered ⟨free, tripped⟩
    obtain ⟨_, _, rfl⟩ | ⟨_, _, _, rfl⟩ | ⟨_, exceeded, _, rfl⟩ := Budget.enter_cases entered
    · exact ⟨free, tripped⟩
    · exact ⟨free, tripped⟩
    · have free : b.options.matchStack = 0 := free
      simp [Budget.exceeds, free] at exceeded

theorem attemptWithin_roomy {g : Graph} {t : Text} {k id p : Nat} {s u : MatchState}
    {r : Option Nat} {o : MatchOptions} (free : s.budget.options = { o with matchStack := 0 })
    (room : s.budget.depth + k ≤ o.matchStack) (running : s.isHalted = false)
    (ok : g.attemptWithin t k id p s = .ok (r, u)) :
    g.attemptWithin t k id p (s.withOptions o) = .ok (r, u.withOptions o) ∧
      u.budget.halt ≠ some .matchStack := by
  have calm := attemptWithin_unstacked (by rw [free]) running ok
  have options := (attemptWithin_leadsTo ok).options
  have looks {b : Budget} (leads : b.Leads u.budget) :
      (b.withOptions o).overdrawn? = b.overdrawn? :=
    Budget.overdrawn?_withOptions ((leads.options.symm.trans options).trans free)
  have agrees : o.Agrees u.budget := ⟨fun leads _ fits => (looks leads).trans fits,
    fun leads _ overdrawn => (looks leads).trans overdrawn⟩
  have fits : o.Room u.budget s.budget.depth k k :=
    ⟨.inl (Nat.le_refl k), .inr (.inl room), fun tripped => absurd tripped calm,
      fun _ => Nat.le_refl k⟩
  exact ⟨attemptWithin_withOptions agrees fits ok, calm⟩

namespace Expr.Compiled

variable {e : Expr} {g : Graph} {t : Text} {origin p : Nat} {options : MatchOptions}
  {s : MatchState}

theorem attemptWithin_size (compiled : e.Compiled g) (wellFormed : g.WellFormed e)
    (flat : g.Flat) (id p : Nat) (s : MatchState) :
    g.attemptWithin t g.size id p s = g.attempt t id p s := by
  have pos := Nat.zero_lt_of_lt wellFormed.entry
  have pos' := g.nestingBound_pos t
  have squared : g.size * 1 ≤ (g.size + 1) * (g.size + 1) :=
    Nat.mul_le_mul (Nat.le_succ _) (Nat.succ_pos _)
  have fewer : g.size ≤ g.nestingBound t := by
    have once : 1 * ((g.size + 1) * (g.size + 1)) ≤ g.nestingBound t :=
      Nat.mul_le_mul_right _ (by omega)
    omega
  have same : g.attemptWithin t (g.size - 1 + 1) id p s =
      g.attemptWithin t (g.nestingBound t - 1 + 1) id p s :=
    wellFormed.attemptWithin_eq flat compiled.enclosing (fun _ => by omega) (fun _ => by omega) p s
  rwa [Nat.sub_add_cancel pos, Nat.sub_add_cancel pos'] at same

theorem attemptAt_roomy (compiled : e.Compiled g) (wellFormed : g.WellFormed e) (flat : g.Flat)
    (begins : g.Begins t origin options p s) (room : g.size ≤ options.matchStack) {u : MatchState} :
    g.attemptAt t p s ≠ .ok (.error (.halted .matchStack), u) := by
  intro given
  obtain ⟨stop, after, attempted, ⟨cause, halt, same, _⟩ | ⟨_, _, same, _⟩ | ⟨_, _, _, _, same⟩⟩ :=
    Graph.attemptAt_cases given
  · cases same
    have sound := compiled.begins_sound begins
    obtain ⟨stop', u', answer, _⟩ := compiled.attempt_safe
      (s := s.withOptions { options with matchStack := 0 }) sound
    rw [← compiled.attemptWithin_size wellFormed flat] at answer attempted
    have enough : s.budget.depth + g.size ≤ options.matchStack := by
      rw [begins.depth]
      omega
    obtain ⟨answer', calm⟩ := attemptWithin_roomy
      (s := s.withOptions { options with matchStack := 0 }) rfl enough begins.running answer
    have back : (s.withOptions { options with matchStack := 0 }).withOptions options = s := by
      rw [← begins.options]
      rfl
    rw [back] at answer'
    cases attempted.symm.trans answer'
    exact calm halt
  · cases same
  · cases same

end Expr.Compiled

/-- Without loops no more visits are open at once than there are nodes: with so many allowed,
whatever node is visited, a visit leads to the same as with the general allowance. So neither a
match nor a search is given up over a limit on visits that is no less. -/
theorem Expr.leafLoops_flat {e : Expr} {g : Graph} (ok : e.compile = .ok g) (flat : g.Flat)
    (t : Text) :
    (∀ id p s, g.attemptWithin t g.size id p s = g.attempt t id p s ∧
      g.attemptWithin t g.size id p s ≠ .error .nesting) ∧
    ∀ start, t.isBoundary start = true → ∀ options : MatchOptions, g.size ≤ options.matchStack →
      (∃ verdict, g.run t start options = .ok verdict ∧
        verdict ≠ .error (.halted .matchStack)) ∧
      ∃ verdict, g.search t start options = .ok verdict ∧
        verdict ≠ .error (.halted .matchStack) := by
  have compiled := compile_compiled ok
  have wellFormed := compile_wellFormed ok
  refine ⟨fun id p s => ?_, fun start valid options room => ?_⟩
  · have same := compiled.attemptWithin_size wellFormed flat (t := t) id p s
    exact ⟨same, same ▸ compiled.attemptWithin_shallow (Nat.le_refl _) id p s⟩
  · have calm {verdict : Verdict}
        (ended : g.run t start options = .ok verdict ∨ g.search t start options = .ok verdict) :
        verdict ≠ .error (.halted .matchStack) := by
      rintro rfl
      obtain failed | ⟨q, s, u, makes, given⟩ := Graph.Makes.of_verdict valid ended
      · cases failed
      · exact compiled.attemptAt_roomy wellFormed flat (compiled.makes_begins valid makes) room
          given
    obtain ⟨⟨verdict, run, _⟩, verdict', search, _⟩ := (matching_safe ok valid).2 options
    exact ⟨⟨verdict, run, calm (.inl run)⟩, verdict', search, calm (.inr search)⟩

theorem Expr.leafLoops_flat_possessive : ∃ g, (concat [group .capture (repetition (literal "a"
      false) 1 none .possessive), group .lookAhead (repetition (literal "b" false) 0 none
      .reluctant)]).compile = .ok g ∧ g.Flat ∧ g.size = 12 ∧
    g.attemptWithin ⟨"aaaab", by decide⟩ 12 g.entry 0 (.fresh g .unlimited 0) ≠
      .error .nesting ∧
    g.search ⟨"aaaab", by decide⟩ 0 { matchStack := 12 } =
      .ok (.ok (.matched ⟨⟨"aaaab", by decide⟩, #[some ⟨0, 4⟩, some ⟨0, 4⟩]⟩)) ∧
    (∃ verdict, g.search ⟨"aaaab", by decide⟩ 0 { matchStack := 12 } = .ok verdict ∧
      verdict ≠ .error (.halted .matchStack)) ∧
    g.search ⟨"aaaab", by decide⟩ 0 { matchStack := 5 } = .ok (.error (.halted .matchStack)) := by
  let t : Text := ⟨"aaaab", by decide⟩
  let g : Graph := ⟨#[.succeed, .commit 0, .literal "b" false 0, .leafLoop 2 0 none false 1,
    .lookAhead 0 false [3] ⟨⟨2, 2⟩, ⟨1, 1⟩⟩ 0, .groupEnd 1 (some 1) 4, .commit 2,
    .literal "a" false 0, .leafLoop 7 1 none true 6, .atomic 2 [8] ⟨⟨2, 2⟩, ⟨3, 3⟩⟩ 5,
    .group 1 (some 1) [9] 4, .sequence [10, 4] 0], 11, 1, 3, some 97⟩
  have ok : (concat [group .capture (repetition (literal "a" false) 1 none .possessive),
      group .lookAhead (repetition (literal "b" false) 0 none .reluctant)]).compile = .ok g := rfl
  have flat : g.Flat := fun l member => by simp [g] at member
  obtain ⟨shallow, calm⟩ := leafLoops_flat ok flat t
  exact ⟨g, ok, flat, rfl, (shallow _ _ _).2, by decide +kernel,
    (calm 0 (by decide) { matchStack := 12 } (Nat.le_refl 12)).2, by decide +kernel⟩

end BacktrackRegex
