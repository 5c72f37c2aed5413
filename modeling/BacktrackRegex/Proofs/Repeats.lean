import BacktrackRegex.Proofs.Pairs

/-! A search that made fewer polls. It goes on from the same registers as a longer one. Whatever the
longer one leads to without a halt, the shorter one leads to as well. -/
namespace BacktrackRegex

/-- Nothing has ended the longer search from outside so far, so nothing would have ended the shorter
one. -/
structure Budget.Trails (b b' : Budget) : Prop where
  options : b.options = b'.options
  depth : b.depth = b'.depth
  inMatch : b.retriesInMatch = b'.retriesInMatch
  inSearch : b.retriesInSearch ≤ b'.retriesInSearch
  running : b.isHalted = false
  running' : b'.isHalted = false
  calm : ∀ n, 0 < n → n ≤ b'.retriesInSearch → b'.options.interrupt? n = none

namespace Budget

variable {b b' c' : Budget}

theorem poll_trails (trails : b.Trails b') (polled : b'.poll = (true, c')) :
    ∃ c, b.poll = (true, c) ∧ c.Trails c' := by
  obtain ⟨_, fits', rfl⟩ := poll_granted polled
  obtain ⟨inMatch, inSearch, calmNow⟩ := overdrawn?_none.mp fits'
  have fewer := Nat.succ_le_succ trails.inSearch
  have calm (n : Nat) (positive : 0 < n) (le : n ≤ b'.retriesInSearch + 1) :
      b'.options.interrupt? n = none := by
    cases Nat.le_or_eq_of_le_succ le with
    | inl before => exact trails.calm n positive before
    | inr now => exact now ▸ calmNow
  have fits : b.counted.overdrawn? = none := by
    apply overdrawn?_none.mpr
    dsimp only [counted] at *
    rw [trails.options, trails.inMatch]
    exact ⟨inMatch, exceeds_mono fewer inSearch, calm _ (Nat.succ_pos _) fewer⟩
  exact ⟨b.counted, poll_of_fits trails.running fits, trails.options, trails.depth,
    congrArg (· + 1) trails.inMatch, fewer, trails.running, trails.running', calm⟩

theorem enter_trails (trails : b.Trails b') (entered : b'.enter = (true, c')) :
    ∃ c, b.enter = (true, c) ∧ c.Trails c' := by
  obtain ⟨_, fits, rfl⟩ := enter_granted entered
  refine ⟨{ b with depth := b.depth + 1 }, ?_, trails.options, congrArg (· + 1) trails.depth,
    trails.inMatch, trails.inSearch, trails.running, trails.running', trails.calm⟩
  simp [enter, trails.running, trails.options, trails.depth, fits]

theorem trails_lasts : Lasts Trails (·.isHalted = false) := by
  constructor
  case halted =>
    intro b b' trails
    exact trails.running.trans trails.running'.symm
  case before =>
    intro b' c' may polled running
    obtain ⟨halt, _, rfl⟩ | ⟨running', _⟩ | ⟨running', _⟩ := poll_cases polled
    · rw [halt] at running; cases running
    · exact running'
    · exact running'
  case poll =>
    intro b b' c' may trails polled running
    cases may with
    | false => rw [poll_halted polled] at running; cases running
    | true => exact poll_trails trails polled

theorem trails_enters : Enters Trails Trails (·.isHalted = false) := by
  constructor
  case before =>
    intro b' c' may entered running
    obtain ⟨halt, _, rfl⟩ | ⟨running', _⟩ | ⟨running', _⟩ := enter_cases entered
    · rw [halt] at running; cases running
    · exact running'
    · exact running'
  case refused =>
    intro b b' c' _ entered running
    rw [(enter_halted entered).1] at running
    cases running
  case granted =>
    intro b b' c' trails entered _
    exact enter_trails trails entered
  case leave =>
    intro b b' trails
    exact { trails with depth := congrArg (· - 1) trails.depth }
  case left =>
    intro b' running
    exact running

end Budget

structure MatchState.Trails (s s' : MatchState) : Prop where
  regs : s.regs = s'.regs
  budget : s.budget.Trails s'.budget

structure Repeats (attempt : MatchState → Attempted) : Prop where
  stays : ∀ {s r s'}, s.isHalted = true → attempt s = .ok (r, s') → s'.isHalted = true
  again : ∀ {s s' r u'}, s.Trails s' → attempt s' = .ok (r, u') → u'.isHalted = false →
    ∃ u, attempt s = .ok (r, u) ∧ u.Trails u'

theorem attemptWithin_trails (g : Graph) (t : Text) (depth : Nat) (id : NodeId) (p : Nat) :
    Carries Budget.Trails (·.isHalted = false) (g.attemptWithin t depth id p)
      (g.attemptWithin t depth id p) := by
  induction depth generalizing id p with
  | zero => exact .fault _ .nesting
  | succ depth ih => exact .visit Budget.trails_enters (.visitNode Budget.trails_lasts ih id p)

theorem attemptWithin_repeats (g : Graph) (t : Text) (depth : Nat) (id : NodeId) (p : Nat) :
    Repeats (g.attemptWithin t depth id p) := by
  constructor
  case stays =>
    intro s r s' halt ok
    cases halt' : s'.isHalted with
    | true => rfl
    | false =>
      have running : s.isHalted = false :=
        (attemptWithin_trails g t depth id p).before ok halt'
      rw [halt] at running
      cases running
  case again =>
    intro s s' r u' trails ok running
    obtain ⟨u, answer, linked⟩ :=
      (attemptWithin_trails g t depth id p).again ⟨trails.regs, trails.budget⟩ ok running
    exact ⟨u, answer, linked.regs, linked.budget⟩

end BacktrackRegex
