import BacktrackRegex.Proofs.Pairs
import BacktrackRegex.Proofs.Rollback

/-! Runs under other options. A run depends on its limits only where it looks at them. If other
options say the same to all that a run asked for, they lead to the same end, be it an answer or a
halt. -/
namespace BacktrackRegex

namespace Budget

def withOptions (b : Budget) (o : MatchOptions) : Budget := { b with options := o }

structure Leads (b w : Budget) : Prop where
  options : w.options = b.options
  inMatch : b.retriesInMatch ≤ w.retriesInMatch
  inSearch : b.retriesInSearch ≤ w.retriesInSearch
  halt : b.isHalted = true → w.halt = b.halt

namespace Leads

variable {a b c : Budget}

theorem refl (b : Budget) : b.Leads b := by
  exact ⟨rfl, Nat.le_refl _, Nat.le_refl _, fun _ => rfl⟩

theorem trans (first : a.Leads b) (second : b.Leads c) : a.Leads c := by
  constructor
  case options => exact second.options.trans first.options
  case inMatch => exact Nat.le_trans first.inMatch second.inMatch
  case inSearch => exact Nat.le_trans first.inSearch second.inSearch
  case halt =>
    intro on
    have same := first.halt on
    have on' : b.isHalted = true := by rw [isHalted, same]; exact on
    exact (second.halt on').trans same

end Leads

variable {b c : Budget} {may : Bool}

theorem poll_leads (polled : b.poll = (may, c)) : b.Leads c := by
  obtain ⟨_, _, rfl⟩ | ⟨running, _, _, rfl⟩ | ⟨running, cause, _, _, rfl⟩ := poll_cases polled
  · exact .refl c
  · exact ⟨rfl, Nat.le_succ _, Nat.le_succ _, fun _ => rfl⟩
  · exact ⟨rfl, Nat.le_succ _, Nat.le_succ _, fun on => by simp [running] at on⟩

theorem enter_leads (entered : b.enter = (may, c)) : b.Leads c := by
  obtain ⟨_, _, rfl⟩ | ⟨_, _, _, rfl⟩ | ⟨running, _, _, rfl⟩ := enter_cases entered
  · exact .refl c
  · exact ⟨rfl, Nat.le_refl _, Nat.le_refl _, fun _ => rfl⟩
  · exact ⟨rfl, Nat.le_refl _, Nat.le_refl _, fun on => by simp [running] at on⟩

theorem poll_of_overdrawn {cause : Halt} (running : b.isHalted = false)
    (overdrawn : b.counted.overdrawn? = some cause) :
    b.poll = (false, { b.counted with halt := some cause }) := by
  unfold counted at overdrawn
  simp [poll, running, overdrawn, counted]

theorem enter_of_fits (running : b.isHalted = false)
    (fits : exceeds (b.depth + 1) b.options.matchStack = false) :
    b.enter = (true, { b with depth := b.depth + 1 }) := by
  simp [enter, running, fits]

theorem enter_of_tripped (running : b.isHalted = false)
    (tripped : exceeds (b.depth + 1) b.options.matchStack = true) :
    b.enter = (false, { b with halt := some .matchStack }) := by
  simp [enter, running, tripped]

theorem exceeds_false {n limit : Nat} : exceeds n limit = false ↔ limit = 0 ∨ n ≤ limit := by
  simp only [exceeds, Bool.and_eq_false_iff, bne_eq_false_iff_eq, decide_eq_false_iff_not,
    Nat.not_lt]

end Budget

section Before

variable {g : Graph} {t : Text} {depth id p : Nat} {s u : MatchState} {r : Option Nat}

theorem attemptWithin_before {E : Budget → Prop}
    (polled : ∀ {b c may}, b.poll = (may, c) → E c → E b)
    (entered : ∀ {b c may}, b.enter = (may, c) → E c → E b) (left : ∀ {b}, E b.leave → E b)
    (ok : g.attemptWithin t depth id p s = .ok (r, u)) (after : E u.budget) : E s.budget := by
  -- No two budgets need be linked for this.
  have lasts : Budget.Lasts (fun _ _ => False) E := ⟨nofun, polled, nofun⟩
  have enters : Budget.Enters (fun _ _ => False) (fun _ _ => False) E :=
    ⟨entered, nofun, nofun, nofun, left⟩
  have carries (depth id p : Nat) : Carries (fun _ _ => False) E (g.attemptWithin t depth id p)
      (g.attemptWithin t depth id p) := by
    induction depth generalizing id p with
    | zero => exact .fault _ .nesting
    | succ depth ih => exact .visit enters (.visitNode lasts ih id p)
  exact (carries depth id p).before ok after

theorem attemptWithin_after {F : Budget → Prop}
    (polled : ∀ {b c}, b.poll = (true, c) → F b → F c)
    (entered : ∀ {b c}, b.enter = (true, c) → F b → F c) (left : ∀ {b}, F b → F b.leave)
    (running : u.isHalted = false) (ok : g.attemptWithin t depth id p s = .ok (r, u))
    (before : F s.budget) : F u.budget := by
  refine Classical.byContradiction fun broken => ?_
  refine (attemptWithin_before (E := fun b => b.isHalted = false ∧ ¬F b) ?_ ?_ ?_ ok
    ⟨running, broken⟩).2 before
  · rintro b c (_ | _) took ⟨running, broken⟩
    · rw [Budget.poll_halted took] at running
      cases running
    · exact ⟨(Budget.poll_granted took).1, fun held => broken (polled took held)⟩
  · rintro b c (_ | _) took ⟨running, broken⟩
    · rw [(Budget.enter_halted took).1] at running
      cases running
    · exact ⟨(Budget.enter_granted took).1, fun held => broken (entered took held)⟩
  · exact fun ⟨running, broken⟩ => ⟨running, fun held => broken (left held)⟩

theorem attemptWithin_leadsTo (ok : g.attemptWithin t depth id p s = .ok (r, u)) :
    s.budget.Leads u.budget := by
  refine attemptWithin_before (E := (·.Leads u.budget)) ?_ ?_ ?_ ok (.refl _)
  · intro b c may polled leads
    exact (Budget.poll_leads polled).trans leads
  · intro b c may entered leads
    exact (Budget.enter_leads entered).trans leads
  · intro b leads
    exact ⟨leads.options, leads.inMatch, leads.inSearch, leads.halt⟩

end Before

/-- Options that say the same about polls to a run that ends with budget `w`. -/
structure MatchOptions.Agrees (o : MatchOptions) (w : Budget) : Prop where
  granted : ∀ {b : Budget}, b.Leads w → 0 < b.retriesInSearch → b.overdrawn? = none →
    (b.withOptions o).overdrawn? = none
  refused : ∀ {b : Budget} {cause}, b.Leads w → w.halt = some cause → b.overdrawn? = some cause →
    (b.withOptions o).overdrawn? = some cause

structure MatchOptions.Room (o : MatchOptions) (w : Budget) (d k k' : Nat) : Prop where
  allowed : k' ≤ k ∨ w.options.matchStack ≠ 0 ∧ w.options.matchStack ≤ d + k
  granted : o.matchStack = 0 ∨ d + k' ≤ o.matchStack ∨
    w.options.matchStack ≠ 0 ∧ w.options.matchStack ≤ o.matchStack
  refused : w.halt = some .matchStack → o.matchStack = w.options.matchStack
  halted : w.isHalted = true → k' ≤ k

namespace MatchOptions

variable {o : MatchOptions} {w : Budget} {d k k' : Nat}

theorem Agrees.of_running (running : w.isHalted = false)
    (granted : ∀ {b : Budget}, b.Leads w → 0 < b.retriesInSearch → b.overdrawn? = none →
      (b.withOptions o).overdrawn? = none) : o.Agrees w := by
  constructor
  case granted => exact granted
  case refused =>
    intro b cause _ halt
    rw [Budget.isHalted, halt] at running
    cases running

theorem Room.of_running (running : w.isHalted = false)
    (allowed : k' ≤ k ∨ w.options.matchStack ≠ 0 ∧ w.options.matchStack ≤ d + k)
    (granted : o.matchStack = 0 ∨ d + k' ≤ o.matchStack ∨
      w.options.matchStack ≠ 0 ∧ w.options.matchStack ≤ o.matchStack) : o.Room w d k k' := by
  constructor
  case allowed => exact allowed
  case granted => exact granted
  case refused =>
    intro halt
    rw [Budget.isHalted, halt] at running
    cases running
  case halted =>
    intro on
    rw [running] at on
    cases on

end MatchOptions

namespace Budget

def Under (o : MatchOptions) (d : Nat) (b b' : Budget) : Prop := b = b'.withOptions o ∧ b'.depth = d

variable {o : MatchOptions} {w : Budget} {d k k' : Nat}

theorem under_lasts (agrees : o.Agrees w) : Lasts (Under o d) (·.Leads w) := by
  constructor
  case halted =>
    rintro b b' ⟨rfl, _⟩
    rfl
  case before =>
    intro b' c' may polled leads
    exact (poll_leads polled).trans leads
  case poll =>
    rintro _ b' c' may ⟨rfl, depth⟩ polled leads
    obtain ⟨halt, rfl, rfl⟩ | ⟨running, fits, rfl, rfl⟩ | ⟨running, cause, overdrawn, rfl, rfl⟩ :=
      poll_cases polled
    · exact ⟨_, poll_refused (b := c'.withOptions o) halt, rfl, depth⟩
    · have fits' := agrees.granted leads (Nat.succ_pos _) fits
      exact ⟨_, poll_of_fits (b := b'.withOptions o) running fits', rfl, depth⟩
    · have before : b'.counted.Leads w :=
        ⟨leads.options, leads.inMatch, leads.inSearch, fun on => by
          cases (show b'.isHalted = true from on).symm.trans running⟩
      have overdrawn' := agrees.refused before (leads.halt rfl) overdrawn
      exact ⟨_, poll_of_overdrawn (b := b'.withOptions o) running overdrawn', rfl, depth⟩

theorem under_enters (room : o.Room w d (k + 1) (k' + 1)) :
    Enters (Under o d) (Under o (d + 1)) (·.Leads w) := by
  constructor
  case before =>
    intro b' c' may entered leads
    exact (enter_leads entered).trans leads
  case refused =>
    rintro _ b' c' ⟨rfl, depth⟩ entered leads
    obtain ⟨halt, _, rfl⟩ | ⟨_, _, granted, _⟩ | ⟨running, tripped, _, rfl⟩ := enter_cases entered
    · exact ⟨_, enter_refused (b := c'.withOptions o) halt, rfl, depth⟩
    · cases granted
    · have same : o.matchStack = b'.options.matchStack :=
        (room.refused (leads.halt rfl)).trans (by rw [leads.options])
      exact ⟨_, enter_of_tripped (b := b'.withOptions o) running (same ▸ tripped), rfl, depth⟩
  case granted =>
    rintro _ b' c' ⟨rfl, depth⟩ entered leads
    obtain ⟨running, fits, rfl⟩ := enter_granted entered
    have fits' : exceeds (b'.depth + 1) o.matchStack = false := by
      have limit := exceeds_false.mp fits
      have granted := room.granted
      rw [show w.options = b'.options from leads.options] at granted
      apply exceeds_false.mpr
      omega
    exact ⟨_, enter_of_fits (b := b'.withOptions o) running fits', rfl, congrArg (· + 1) depth⟩
  case leave =>
    rintro _ b' ⟨rfl, depth⟩
    exact ⟨rfl, by simp [leave, depth]⟩
  case left =>
    intro b' leads
    exact ⟨leads.options, leads.inMatch, leads.inSearch, leads.halt⟩

end Budget

/-- A visit leads to the same under options that say the same to it. -/
theorem attemptWithin_under {g : Graph} {t : Text} {o : MatchOptions} {w : Budget}
    (agrees : o.Agrees w) {d k k' : Nat} (room : o.Room w d k k') (id p : Nat) :
    Carries (Budget.Under o d) (·.Leads w) (g.attemptWithin t k id p)
      (g.attemptWithin t k' id p) := by
  induction k' generalizing d k id p with
  | zero => exact .fault _ .nesting
  | succ k' ih =>
    cases k with
    | succ k =>
      have inside : o.Room w (d + 1) k k' := by
        refine ⟨?_, ?_, room.refused, fun halted => Nat.le_of_succ_le_succ (room.halted halted)⟩
        · have := room.allowed
          omega
        · have := room.granted
          omega
      exact .visit (Budget.under_enters room)
        (.visitNode (Budget.under_lasts agrees) (ih inside) id p)
    | zero =>
      refine ⟨fun ok leads => (attemptWithin_leadsTo ok).trans leads, ?_⟩
      intro s s' r u' linked ok leads
      -- The second run trips here over its own limit, and is said not to.
      have options := ((attemptWithin_leadsTo ok).trans leads).options
      have depth := linked.budget.2
      unfold Graph.attemptWithin at ok
      split at ok
      · next entered =>
        cases ok
        have halt := (Budget.enter_halted (MatchState.enter_budget entered).2).1
        have halted : w.isHalted = true := by rw [Budget.isHalted, leads.halt halt]; exact halt
        exact absurd (room.halted halted) (Nat.not_succ_le_zero _)
      · next entered =>
        have fits := (Budget.enter_granted (MatchState.enter_budget entered).2).2.1
        have limit := Budget.exceeds_false.mp fits
        have allowed := room.allowed
        rw [options] at allowed
        omega

def MatchState.withOptions (s : MatchState) (o : MatchOptions) : MatchState :=
  { s with budget := s.budget.withOptions o }

theorem attemptWithin_withOptions {g : Graph} {t : Text} {o : MatchOptions} {k k' id p : Nat}
    {s u : MatchState} {r : Option Nat} (agrees : o.Agrees u.budget)
    (room : o.Room u.budget s.budget.depth k k') (ok : g.attemptWithin t k' id p s = .ok (r, u)) :
    g.attemptWithin t k id p (s.withOptions o) = .ok (r, u.withOptions o) := by
  have linked : (s.withOptions o).Linked (Budget.Under o s.budget.depth) s := ⟨rfl, rfl, rfl⟩
  obtain ⟨⟨regs, budget⟩, ok', same, under, _⟩ :=
    (attemptWithin_under agrees room id p).again linked ok (.refl _)
  cases same
  cases under
  exact ok'

end BacktrackRegex
