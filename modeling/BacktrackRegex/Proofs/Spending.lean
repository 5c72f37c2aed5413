import BacktrackRegex.MatchState

/-! What a match takes from its budget. Depth is given back, polls are not, and once a limit has
tripped nothing is taken any more and nothing succeeds. -/
namespace BacktrackRegex

structure MatchOptions.Unlimited (o : MatchOptions) : Prop where
  matchStack : o.matchStack = 0
  retriesInMatch : o.retriesInMatch = 0
  retriesInSearch : o.retriesInSearch = 0
  time : o.time = 0
  aborted : o.aborted = false

def MatchOptions.unlimited : MatchOptions := { matchStack := 0, retriesInMatch := 0 }

theorem MatchOptions.unlimited_free : unlimited.Unlimited := by
  constructor <;> rfl

namespace Budget

/-- A budget before and after an attempt that led to `r` and polled at most so many times. -/
structure Spends (polls : Nat) (b : Budget) (r : Option Nat) (b' : Budget) : Prop where
  options : b'.options = b.options
  depth : b'.depth = b.depth
  searched : b.retriesInSearch ≤ b'.retriesInSearch ∧ b'.retriesInSearch ≤ b.retriesInSearch + polls
  halted : b'.isHalted = true → r = none
  refused : b.isHalted = true → r = none ∧ b' = b
  unlimited : b.options.Unlimited → b.isHalted = false → b'.isHalted = false

namespace Spends

variable {polls more : Nat} {a b c : Budget} {r found : Option Nat}

theorem failure (b : Budget) : Spends 0 b none b := by
  refine ⟨rfl, rfl, ⟨Nat.le_refl _, Nat.le_refl _⟩, ?_, ?_, ?_⟩
  · exact fun _ => rfl
  · exact fun _ => ⟨rfl, rfl⟩
  · exact fun _ running => running

theorem success (b : Budget) (p : Nat) (running : b.isHalted = false) : Spends 0 b (some p) b := by
  refine ⟨rfl, rfl, ⟨Nat.le_refl _, Nat.le_refl _⟩, ?_, ?_, ?_⟩
  · intro halt
    simp [running] at halt
  · intro halt
    simp [running] at halt
  · exact fun _ _ => running

theorem trans (first : Spends polls a found b) (second : Spends more b r c) :
    Spends (polls + more) a r c := by
  constructor
  case options => exact second.options.trans first.options
  case depth => exact second.depth.trans first.depth
  case searched => have := first.searched; have := second.searched; omega
  case halted => exact second.halted
  case refused =>
    intro halt
    obtain ⟨_, rfl⟩ := first.refused halt
    exact second.refused halt
  case unlimited =>
    intro free running
    exact second.unlimited (first.options ▸ free) (first.unlimited free running)

theorem mono (spent : Spends polls a r b) (enough : polls ≤ more) : Spends more a r b := by
  obtain ⟨low, high⟩ := spent.searched
  have searched := And.intro low (Nat.le_trans high (Nat.add_le_add_left enough _))
  exact { spent with searched }

end Spends

theorem overdrawn?_unlimited {b : Budget} (free : b.options.Unlimited) : b.overdrawn? = none := by
  simp [overdrawn?, exceeds, MatchOptions.interrupt?, free.retriesInMatch, free.retriesInSearch,
    free.time, free.aborted]

def counted (b : Budget) : Budget :=
  { b with retriesInMatch := b.retriesInMatch + 1, retriesInSearch := b.retriesInSearch + 1 }

variable {b b' : Budget} {may : Bool}

theorem poll_cases (polled : b.poll = (may, b')) :
    (b.isHalted = true ∧ may = false ∧ b' = b) ∨
      (b.isHalted = false ∧ b.counted.overdrawn? = none ∧ may = true ∧ b' = b.counted) ∨
      (b.isHalted = false ∧ ∃ cause, b.counted.overdrawn? = some cause ∧ may = false ∧
        b' = { b.counted with halt := some cause }) := by
  unfold poll at polled
  cases halt : b.isHalted with
  | true =>
    rw [halt] at polled
    cases polled
    exact .inl ⟨rfl, rfl, rfl⟩
  | false =>
    simp only [halt, Bool.false_eq_true, if_false] at polled
    split at polled
    · next cause overdrawn =>
      cases polled
      exact .inr (.inr ⟨rfl, cause, overdrawn, rfl, rfl⟩)
    · next fits =>
      cases polled
      exact .inr (.inl ⟨rfl, fits, rfl, rfl⟩)

theorem poll_spends (polled : b.poll = (may, b')) : Spends 1 b none b' := by
  have once : b.retriesInSearch ≤ b.counted.retriesInSearch ∧
      b.counted.retriesInSearch ≤ b.retriesInSearch + 1 := ⟨Nat.le_succ _, Nat.le_refl _⟩
  obtain ⟨_, _, rfl⟩ | ⟨running, _, _, rfl⟩ | ⟨running, cause, overdrawn, _, rfl⟩ :=
    poll_cases polled
  · exact (Spends.failure b').mono (Nat.zero_le _)
  · exact ⟨rfl, rfl, once, fun _ => rfl, fun on => by simp [running] at on, fun _ _ => running⟩
  · refine ⟨rfl, rfl, once, fun _ => rfl, fun on => by simp [running] at on, ?_⟩
    intro free _
    rw [overdrawn?_unlimited (b := b.counted) free] at overdrawn
    cases overdrawn

theorem exceeds_mono {m n limit : Nat} (le : m ≤ n) (fits : exceeds n limit = false) :
    exceeds m limit = false := by
  simp only [exceeds, Bool.and_eq_false_iff, bne_eq_false_iff_eq, decide_eq_false_iff_not] at *
  omega

theorem overdrawn?_none : b.overdrawn? = none ↔
    exceeds b.retriesInMatch b.options.retriesInMatch = false ∧
    exceeds b.retriesInSearch b.options.retriesInSearch = false ∧
    b.options.interrupt? b.retriesInSearch = none := by
  unfold overdrawn?
  split
  · simp_all
  · split <;> simp_all

theorem poll_refused (halt : b.isHalted = true) : b.poll = (false, b) := by
  simp [poll, halt]

theorem poll_of_fits (running : b.isHalted = false) (fits : b.counted.overdrawn? = none) :
    b.poll = (true, b.counted) := by
  unfold counted at fits
  simp [poll, running, fits, counted]

theorem poll_granted (polled : b.poll = (true, b')) :
    b.isHalted = false ∧ b.counted.overdrawn? = none ∧ b' = b.counted := by
  obtain ⟨_, refused, _⟩ | ⟨running, fits, _, same⟩ | ⟨_, _, _, refused, _⟩ := poll_cases polled
  · cases refused
  · exact ⟨running, fits, same⟩
  · cases refused

theorem poll_halted (polled : b.poll = (false, b')) : b'.isHalted = true := by
  obtain ⟨halt, _, rfl⟩ | ⟨_, _, granted, _⟩ | ⟨_, _, _, _, rfl⟩ := poll_cases polled
  · exact halt
  · cases granted
  · rfl

theorem enter_cases (entered : b.enter = (may, b')) :
    (b.isHalted = true ∧ may = false ∧ b' = b) ∨
      (b.isHalted = false ∧ exceeds (b.depth + 1) b.options.matchStack = false ∧ may = true ∧
        b' = { b with depth := b.depth + 1 }) ∨
      (b.isHalted = false ∧ exceeds (b.depth + 1) b.options.matchStack = true ∧ may = false ∧
        b' = { b with halt := some .matchStack }) := by
  unfold enter at entered
  cases halt : b.isHalted with
  | true =>
    rw [halt] at entered
    cases entered
    exact .inl ⟨rfl, rfl, rfl⟩
  | false =>
    simp only [halt, Bool.false_eq_true, if_false] at entered
    split at entered
    · next tripped =>
      cases entered
      exact .inr (.inr ⟨rfl, tripped, rfl, rfl⟩)
    · next fits =>
      cases entered
      exact .inr (.inl ⟨rfl, Bool.eq_false_iff.mpr fits, rfl, rfl⟩)

theorem enter_refused (halt : b.isHalted = true) : b.enter = (false, b) := by
  simp [enter, halt]

theorem enter_granted (entered : b.enter = (true, b')) : b.isHalted = false ∧
    exceeds (b.depth + 1) b.options.matchStack = false ∧ b' = { b with depth := b.depth + 1 } := by
  obtain ⟨_, refused, _⟩ | ⟨running, fits, _, same⟩ | ⟨_, _, refused, _⟩ := enter_cases entered
  · cases refused
  · exact ⟨running, fits, same⟩
  · cases refused

theorem enter_halted (entered : b.enter = (false, b')) :
    b'.isHalted = true ∧ Spends 0 b none b' := by
  obtain ⟨halt, _, rfl⟩ | ⟨_, _, granted, _⟩ | ⟨running, tripped, _, rfl⟩ := enter_cases entered
  · exact ⟨halt, .failure b'⟩
  · cases granted
  · refine ⟨rfl, rfl, rfl, ⟨Nat.le_refl _, Nat.le_refl _⟩, fun _ => rfl,
      fun on => by simp [running] at on, ?_⟩
    intro free _
    simp [free.matchStack, exceeds] at tripped

theorem Spends.visit {polls : Nat} {entered : Budget} {r : Option Nat}
    (took : b.enter = (true, entered)) (inner : Spends polls entered r b') :
    Spends polls b r b'.leave := by
  obtain ⟨running, _, rfl⟩ := enter_granted took
  refine ⟨inner.options, ?_, inner.searched, inner.halted, fun on => by simp [running] at on,
    fun free _ => inner.unlimited free running⟩
  simp [leave, inner.depth]

end Budget

end BacktrackRegex
