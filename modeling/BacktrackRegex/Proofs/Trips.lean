import Mathlib.Data.Nat.Find
import BacktrackRegex.Proofs.Cutoffs
import BacktrackRegex.Proofs.Endings
import BacktrackRegex.Proofs.Halts
import BacktrackRegex.Proofs.Reports

/-! What limits do to a match. They cut it off or leave it as it is. A match ends as it does without
limits if none of them is exceeded by what it takes then, and is otherwise given up over one that
is. A search that is not given up under some limits ends in the same way under looser ones. -/
namespace BacktrackRegex

namespace MatchOptions

def Untimed (o : MatchOptions) : Prop := ∀ n, o.interrupt? n ≠ some .time

/-- Whether a match that polls so often and has so many visits open at once exceeds the limit that a
halt is about, if the flag was raised beforehand. -/
def Trips (o : MatchOptions) (polls nesting : Nat) : Halt → Prop
  | .matchStack => o.matchStack ≠ 0 ∧ o.matchStack < nesting
  | .retriesInMatch => o.retriesInMatch ≠ 0 ∧ o.retriesInMatch < polls
  | .retriesInSearch => o.retriesInSearch ≠ 0 ∧ o.retriesInSearch < polls
  | .aborted => o.aborted = true ∧ checkInterval ≤ polls
  | .time => False

/-- Each limit of `o'` is raised, removed or kept in `o`. The flag is removed, kept or raised later,
and the clock never runs out. -/
structure Looser (o o' : MatchOptions) : Prop where
  matchStack : o.matchStack = 0 ∨ o'.matchStack ≠ 0 ∧ o'.matchStack ≤ o.matchStack
  retriesInMatch : o.retriesInMatch = 0 ∨
    o'.retriesInMatch ≠ 0 ∧ o'.retriesInMatch ≤ o.retriesInMatch
  retriesInSearch : o.retriesInSearch = 0 ∨
    o'.retriesInSearch ≠ 0 ∧ o'.retriesInSearch ≤ o.retriesInSearch
  untimed : o.Untimed
  aborted : o.aborted = true → o'.aborted = true ∧ o'.abortedFrom ≤ o.abortedFrom

def only (o : MatchOptions) : Halt → MatchOptions
  | .matchStack => { unlimited with matchStack := o.matchStack }
  | .retriesInMatch => { unlimited with retriesInMatch := o.retriesInMatch }
  | .retriesInSearch => { unlimited with retriesInSearch := o.retriesInSearch }
  | .aborted => { unlimited with aborted := o.aborted, abortedFrom := o.abortedFrom }
  | .time => unlimited

variable {o o' : MatchOptions} {b w : Budget} {cause : Halt}

theorem untimed_of_time (off : o.time = 0) : o.Untimed := by
  intro n
  simp [interrupt?, off]

theorem Untimed.interrupt?_eq (untimed : o.Untimed) (n : Nat) : o.interrupt? n =
    if n % checkInterval = 0 ∧ o.aborted = true ∧ o.abortedFrom ≤ n then some .aborted
    else none := by
  have never := untimed n
  unfold interrupt? at never ⊢
  split
  · next off => simp_all
  · next on =>
    split
    · next up => simp_all
    · next calm => simp_all

theorem calm_of_interrupt? {n : Nat} (calm : o.interrupt? n = none)
    (looked : n % checkInterval = 0) : ¬(o.aborted = true ∧ o.abortedFrom ≤ n) := by
  rintro ⟨flag, raised⟩
  unfold interrupt? at calm
  split at calm
  · next off => simp [looked] at off
  · split at calm
    · cases calm
    · simp [flag, raised] at calm

theorem Untimed.overdrawn?_none (untimed : b.options.Untimed)
    (inMatch : b.options.retriesInMatch = 0 ∨ b.retriesInMatch ≤ b.options.retriesInMatch)
    (inSearch : b.options.retriesInSearch = 0 ∨ b.retriesInSearch ≤ b.options.retriesInSearch)
    (calm : b.retriesInSearch % checkInterval = 0 → b.options.aborted = true →
      b.retriesInSearch < b.options.abortedFrom) : b.overdrawn? = none := by
  refine Budget.overdrawn?_none.mpr ⟨Budget.exceeds_false.mpr inMatch,
    Budget.exceeds_false.mpr inSearch, ?_⟩
  rw [untimed.interrupt?_eq, if_neg]
  rintro ⟨looked, flag, raised⟩
  exact absurd raised (Nat.not_le.mpr (calm looked flag))

theorem Looser.granted (looser : o.Looser b.options) (fits : b.overdrawn? = none) :
    (b.withOptions o).overdrawn? = none := by
  obtain ⟨inMatch, inSearch, calm⟩ := Budget.overdrawn?_none.mp fits
  have inMatch := Budget.exceeds_false.mp inMatch
  have inSearch := Budget.exceeds_false.mp inSearch
  have raised := looser.retriesInMatch
  have raised' := looser.retriesInSearch
  refine Untimed.overdrawn?_none (b := b.withOptions o) looser.untimed ?_ ?_ fun looked flag => ?_
  · dsimp only [Budget.withOptions]
    omega
  · dsimp only [Budget.withOptions]
    omega
  · obtain ⟨flag', earlier⟩ := looser.aborted flag
    have unseen : ¬b.options.abortedFrom ≤ b.retriesInSearch := fun seen =>
      calm_of_interrupt? calm looked ⟨flag', seen⟩
    dsimp only [Budget.withOptions]
    omega

theorem Looser.agrees (looser : o.Looser w.options) (running : w.isHalted = false) :
    o.Agrees w := by
  refine .of_running running fun {b} leads _ fits => ?_
  have looser' : o.Looser b.options := leads.options ▸ looser
  exact looser'.granted fits

theorem Looser.room (looser : o.Looser w.options)
    (refused : w.halt = some .matchStack → o.matchStack = w.options.matchStack) (d k : Nat) :
    o.Room w d k k := by
  constructor
  case allowed => exact .inl (Nat.le_refl k)
  case granted => exact looser.matchStack.imp_right .inr
  case refused => exact refused
  case halted =>
    intro _
    exact Nat.le_refl k

theorem unlimited_looser (o : MatchOptions) : unlimited.Looser o := by
  constructor
  case matchStack | retriesInMatch | retriesInSearch => exact .inl rfl
  case untimed => exact untimed_of_time rfl
  case aborted => exact nofun

theorem only_looser (o : MatchOptions) (cause : Halt) : (o.only cause).Looser o := by
  have kept (n : Nat) : n = 0 ∨ n ≠ 0 ∧ n ≤ n := by omega
  have loose := unlimited_looser o
  cases cause with
  | matchStack => exact { loose with untimed := untimed_of_time rfl, matchStack := kept _ }
  | retriesInMatch => exact { loose with untimed := untimed_of_time rfl, retriesInMatch := kept _ }
  | retriesInSearch =>
    exact { loose with untimed := untimed_of_time rfl, retriesInSearch := kept _ }
  | aborted =>
    exact { loose with
      untimed := untimed_of_time rfl, aborted := fun flag => ⟨flag, Nat.le_refl _⟩ }
  | time => exact loose

theorem only_within {polls nesting : Nat} (fits : ¬o.Trips polls nesting cause) (other : Halt) :
    ¬(o.only cause).Trips polls nesting other := by
  cases cause <;> cases other <;> first | exact fits | simp [only, Trips, unlimited]

theorem only_refused (untimed : b.options.Untimed) (overdrawn : b.overdrawn? = some cause) :
    (b.withOptions (b.options.only cause)).overdrawn? = some cause := by
  unfold Budget.overdrawn? at overdrawn
  split at overdrawn
  · next exceeded =>
    cases overdrawn
    simp [Budget.overdrawn?, Budget.withOptions, only, exceeded]
  · split at overdrawn
    · next exceeded =>
      cases overdrawn
      simp [Budget.overdrawn?, Budget.withOptions, only, unlimited, exceeded,
        Budget.exceeds_false.mpr]
    · rw [untimed.interrupt?_eq] at overdrawn
      split at overdrawn
      · next raised =>
        cases overdrawn
        have seen : (b.options.only .aborted).interrupt? b.retriesInSearch = some .aborted := by
          rw [(untimed_of_time rfl : (b.options.only .aborted).Untimed).interrupt?_eq]
          exact if_pos raised
        simpa [Budget.overdrawn?, Budget.withOptions, Budget.exceeds, only, unlimited] using seen
      · cases overdrawn

theorem agrees_only (untimed : w.options.Untimed) (halt : w.halt = some cause) :
    (w.options.only cause).Agrees w := by
  constructor
  case granted =>
    intro b leads _ fits
    have looser : (w.options.only cause).Looser b.options := leads.options ▸ only_looser _ _
    exact looser.granted fits
  case refused =>
    intro b cause' leads halt' overdrawn
    cases halt.symm.trans halt'
    rw [leads.options] at untimed ⊢
    exact only_refused untimed overdrawn

theorem agrees_of_within (running : w.isHalted = false)
    (same : w.retriesInSearch = w.retriesInMatch) {nesting : Nat} (untimed : o.Untimed)
    (within : ∀ cause, ¬o.Trips w.retriesInMatch nesting cause) : o.Agrees w := by
  refine .of_running running fun {b} leads begun _ => ?_
  have inMatch := within .retriesInMatch
  have inSearch := within .retriesInSearch
  have aborted := within .aborted
  have fewer := leads.inMatch
  have fewer' := leads.inSearch
  simp only [Trips, checkInterval] at inMatch inSearch aborted
  refine Untimed.overdrawn?_none (b := b.withOptions o) untimed ?_ ?_ fun looked flag => ?_
  · dsimp only [Budget.withOptions]
    omega
  · dsimp only [Budget.withOptions]
    omega
  · -- The first look at the flag would come at a later poll.
    have few : ¬512 ≤ w.retriesInMatch := fun many => aborted ⟨flag, many⟩
    have looked : b.retriesInSearch % 512 = 0 := looked
    omega

end MatchOptions

def MatchState.fresh (g : Graph) (o : MatchOptions) (start : Nat) : MatchState :=
  (MatchState.ofGraph g o).reset start

theorem Budget.Came.within {g : Graph} {o : MatchOptions} {start n : Nat} {c : Budget}
    (came : (MatchState.fresh g o start).budget.Came n c)
    (raised : o.aborted = true → o.abortedFrom = 0) (cause : Halt) :
    ¬o.Trips c.retriesInMatch 0 cause := by
  have polls : c.retriesInMatch = n := came.inMatch.trans (Nat.zero_add n)
  intro tripped
  rw [polls] at tripped
  have fits (k : Nat) (positive : 0 < k) (le : k ≤ n) :=
    overdrawn?_none.mp (came.fits k positive le)
  simp only [polled, MatchState.fresh, MatchState.reset, clear, MatchState.ofGraph,
    Nat.zero_add] at fits
  cases cause with
  | matchStack => exact Nat.not_lt_zero _ tripped.2
  | retriesInMatch =>
    have last := fits n (Nat.zero_lt_of_lt tripped.2) (Nat.le_refl n)
    exact (exceeds_false.mp last.1).elim tripped.1 (Nat.not_le.mpr tripped.2)
  | retriesInSearch =>
    have last := fits n (Nat.zero_lt_of_lt tripped.2) (Nat.le_refl n)
    exact (exceeds_false.mp last.2.1).elim tripped.1 (Nat.not_le.mpr tripped.2)
  | time => exact tripped
  | aborted =>
    obtain ⟨flag, many⟩ := tripped
    -- The flag was looked at, and would have been seen.
    have look := fits 512 (by decide) many
    exact MatchOptions.calm_of_interrupt? look.2.2 rfl
      ⟨flag, Nat.le_trans (Nat.le_of_eq (raised flag)) (Nat.zero_le _)⟩

theorem Budget.Came.same {g : Graph} {o : MatchOptions} {start n : Nat} {c : Budget}
    (came : (MatchState.fresh g o start).budget.Came n c) :
    c.retriesInSearch = c.retriesInMatch := by
  rw [came.inSearch, came.inMatch]
  rfl

/-- How a match without limits ends, how often it polls, and how many visits it has open at once
when they are the most: with so many allowed it has an answer, with fewer it has none. -/
structure Graph.Takes (g : Graph) (t : Text) (start : Nat) (outcome : Outcome)
    (polls nesting : Nat) : Prop where
  ends : ∃ s, g.matchAt t start (.ofGraph g .unlimited) = .ok (.ok outcome, s) ∧
    s.budget.retriesInMatch = polls
  nests : ∀ k, g.attemptWithin t k g.entry start (.fresh g .unlimited start) = .error .nesting ↔
    k < nesting

theorem attemptWithin_looser {g : Graph} {t : Text} {id p k k' : Nat} {o : MatchOptions}
    {s u : MatchState} {r : Option Nat} (enough : k' ≤ k) (looser : o.Looser s.budget.options)
    (running : u.isHalted = false) (ok : g.attemptWithin t k' id p s = .ok (r, u)) :
    g.attemptWithin t k id p (s.withOptions o) = .ok (r, u.withOptions o) := by
  have looser' : o.Looser u.budget.options := (attemptWithin_leadsTo ok).options ▸ looser
  exact attemptWithin_withOptions (looser'.agrees running)
    (.of_running running (.inl enough) (looser'.matchStack.imp_right .inr)) ok

structure Graph.Unhindered (g : Graph) (t : Text) (start nesting : Nat) (stop : Option Nat)
    (w : MatchState) : Prop where
  ends : g.attempt t g.entry start (.fresh g .unlimited start) = .ok (stop, w)
  running : w.isHalted = false
  within : ∀ k, nesting ≤ k →
    g.attemptWithin t k g.entry start (.fresh g .unlimited start) = .ok (stop, w)
  beyond : ∀ k, k < nesting →
    g.attemptWithin t k g.entry start (.fresh g .unlimited start) = .error .nesting

namespace Graph.Unhindered

variable {g : Graph} {t : Text} {start nesting : Nat} {stop r : Option Nat} {w u : MatchState}
  {o : MatchOptions} {cause : Halt}

theorem of_running (free : g.Unhindered t start nesting stop w)
    (raised : o.aborted = true → o.abortedFrom = 0)
    (ok : g.attempt t g.entry start (.fresh g o start) = .ok (r, u))
    (running : u.isHalted = false) : ∀ cause, ¬o.Trips w.budget.retriesInMatch nesting cause := by
  have options : u.budget.options = o := (attemptWithin_leadsTo ok).options
  obtain ⟨_, came⟩ := attemptWithin_came running ok
  have within := came.within raised
  have same := attemptWithin_looser (Nat.le_refl _) (MatchOptions.unlimited_looser o) running ok
  cases free.ends.symm.trans same
  intro cause
  cases cause with
  | matchStack =>
    rintro ⟨set, deeper⟩
    have loose : MatchOptions.unlimited.Looser u.budget.options :=
      MatchOptions.unlimited_looser _
    -- The limit of the visits is room enough for the attempt without limits.
    have room : MatchOptions.unlimited.Room u.budget 0 o.matchStack (g.nestingBound t) :=
      .of_running running (.inr (by rw [options]; omega)) (.inl rfl)
    have answer := attemptWithin_withOptions (loose.agrees running) room ok
    cases answer.symm.trans (free.beyond _ deeper)
  | retriesInMatch => exact within .retriesInMatch
  | retriesInSearch => exact within .retriesInSearch
  | time => exact within .time
  | aborted => exact within .aborted

theorem of_within (free : g.Unhindered t start nesting stop w) (untimed : o.Untimed)
    (within : ∀ cause, ¬o.Trips w.budget.retriesInMatch nesting cause) :
    g.attempt t g.entry start (.fresh g o start) = .ok (stop, w.withOptions o) := by
  have enough : nesting ≤ g.nestingBound t := by
    refine Nat.le_of_not_lt fun deeper => ?_
    cases free.ends.symm.trans (free.beyond _ deeper)
  obtain ⟨_, came⟩ := attemptWithin_came free.running free.ends
  have stack := within .matchStack
  simp only [MatchOptions.Trips] at stack
  have room : o.Room w.budget 0 (g.nestingBound t) nesting :=
    .of_running free.running (.inl enough) (by omega)
  exact attemptWithin_withOptions (s := .fresh g .unlimited start)
    (MatchOptions.agrees_of_within free.running came.same untimed within) room
    (free.within nesting (Nat.le_refl _))

theorem of_halted (free : g.Unhindered t start nesting stop w) (untimed : o.Untimed)
    (ok : g.attempt t g.entry start (.fresh g o start) = .ok (r, u))
    (halt : u.budget.halt = some cause) : o.Trips w.budget.retriesInMatch nesting cause := by
  have options : u.budget.options = o := (attemptWithin_leadsTo ok).options
  -- The halt is the same where its limit is the only one, so that one must have been exceeded.
  refine Classical.byContradiction fun fits => ?_
  have agrees : (o.only cause).Agrees u.budget := by
    have only := MatchOptions.agrees_only (options.symm ▸ untimed) halt
    rwa [options] at only
  have loose : (o.only cause).Looser u.budget.options := by
    rw [options]
    exact MatchOptions.only_looser o cause
  have room := loose.room (d := 0) (k := g.nestingBound t) fun tripped => by
    cases halt.symm.trans tripped
    rw [options]
    rfl
  have alone := attemptWithin_withOptions agrees room ok
  have ended := free.of_within loose.untimed (MatchOptions.only_within fits)
  have same : u.withOptions (o.only cause) = w.withOptions (o.only cause) :=
    congrArg Prod.snd (Except.ok.inj (alone.symm.trans ended))
  have running : u.isHalted = false := (congrArg MatchState.isHalted same).trans free.running
  rw [MatchState.isHalted, Budget.isHalted, halt] at running
  cases running

end Graph.Unhindered

namespace Graph

variable {g : Graph} {t : Text} {origin p : Nat} {o : MatchOptions} {s u : MatchState}
  {outcome : Outcome}

theorem attemptAt_withOptions (ok : g.attemptAt t p s = .ok (.ok outcome, u))
    (again : ∀ stop after, g.attempt t g.entry p s = .ok (stop, after) → after.isHalted = false →
      g.attempt t g.entry p (s.withOptions o) = .ok (stop, after.withOptions o)) :
    g.attemptAt t p (s.withOptions o) = .ok (.ok outcome, u.withOptions o) := by
  obtain ⟨stop, after, attempted, running, ended⟩ := attemptAt_success ok
  have running' : (after.withOptions o).budget.isHalted = false := running
  simp only [attemptAt, again stop after attempted running, MatchState.takeHalt_running running',
    bind, Except.bind]
  cases stop with
  | none =>
    obtain ⟨rfl, rfl⟩ := ended
    rfl
  | some q =>
    obtain ⟨wrote, rfl⟩ := ended
    obtain ⟨starts, ends, rfl⟩ := MatchState.setGroup_success.mp wrote
    have wrote' : (after.withOptions o).setGroup 0 (some p) (some q) =
        .ok { after.withOptions o with regs := after.regs.putGroup 0 (some p) (some q) } :=
      MatchState.setGroup_success.mpr ⟨starts, ends, rfl⟩
    simp only [wrote']
    rfl

theorem attemptAt_options (ok : g.attemptAt t p s = .ok (.ok .noMatch, u)) :
    u.budget.options = s.budget.options := by
  obtain ⟨stop, after, attempted, _, ended⟩ := attemptAt_success ok
  cases stop with
  | none => exact ended.2 ▸ (attemptWithin_leadsTo attempted).options
  | some q => cases ended.2

theorem attemptAt_looser (looser : o.Looser s.budget.options)
    (ok : g.attemptAt t p s = .ok (.ok outcome, u)) :
    g.attemptAt t p (s.withOptions o) = .ok (.ok outcome, u.withOptions o) := by
  apply attemptAt_withOptions ok
  intro stop after attempted running
  exact attemptWithin_looser (Nat.le_refl _) looser running attempted

theorem searchFrom_looser (looser : o.Looser s.budget.options)
    (ok : g.searchFrom t origin p s = .ok (.ok outcome, u)) :
    g.searchFrom t origin p (s.withOptions o) = .ok (.ok outcome, u.withOptions o) := by
  -- The clearing before each attempt keeps the budget of the search, so each is made under the
  -- looser limits with what the search has spent so far.
  induction left : t.size - p using Nat.strongRecOn generalizing p s with
  | ind left ih =>
  have again {q : Nat} {outcome : Outcome} {after : MatchState}
      (attempted : g.attemptAt t q (s.resetAttempt origin) = .ok (.ok outcome, after)) :
      g.attemptAt t q ((s.withOptions o).resetAttempt origin) =
        .ok (.ok outcome, after.withOptions o) :=
    attemptAt_looser (s := s.resetAttempt origin) looser attempted
  obtain ⟨missing, same, rfl⟩ | ⟨q, verdict, after, found, attempted, ok⟩ := searchFrom_success ok
  · cases same
    exact searchFrom_none missing
  · obtain ⟨rfl, rfl, ended⟩ | ⟨rfl, c, read, ok⟩ := searchOn_success ok
    · rw [searchFrom_some found (again attempted), ended]
    · have less := Text.left_lt_of_charAt (le_of_candidate? found) read
      have options : after.budget.options = s.budget.options :=
        attemptAt_options (s := s.resetAttempt origin) attempted
      rw [searchFrom_some found (again attempted), searchOn, read]
      exact ih _ (left ▸ less) (options ▸ looser) ok rfl

end Graph

namespace Expr.Compiled

variable {e : Expr} {g : Graph} {t : Text} {start : Nat}

theorem fresh_sound (compiled : e.Compiled g) (valid : t.isBoundary start = true)
    (o : MatchOptions) :
    (compiled.course t start start).Sound start (MatchState.fresh g o start).regs := by
  have fitted : Fitted g 0 (MatchState.ofGraph g o).regs := .unset g 0
  exact Course.sound_clear (c := compiled.course t start start) fitted valid

theorem unhindered (compiled : e.Compiled g) (valid : t.isBoundary start = true) :
    ∃ nesting stop w, g.Unhindered t start nesting stop w := by
  classical
  obtain ⟨stop, w, ends, _, running, _⟩ := compiled.attempt_eq valid
    (MatchState.reset_ready (s := .ofGraph g .unlimited) (.unset g 0) MatchOptions.unlimited_free
      start)
  -- The least allowance under which there is an answer.
  have answered : ∃ k a,
      g.attemptWithin t k g.entry start (.fresh g .unlimited start) = .ok a := ⟨_, _, ends⟩
  obtain ⟨⟨stop', w'⟩, least⟩ := Nat.find_spec answered
  have unhalted : w'.budget.isHalted = false :=
    (attemptWithin_tidy compiled.enclosing _ least).spends.unlimited MatchOptions.unlimited_free rfl
  have more {k : Nat} (enough : Nat.find answered ≤ k) :
      g.attemptWithin t k g.entry start (.fresh g .unlimited start) =
        .ok (stop', w'.withOptions .unlimited) :=
    attemptWithin_looser enough (MatchOptions.unlimited_looser _) unhalted least
  refine ⟨Nat.find answered, stop, w, ends, running, fun k enough => ?_, fun k fewer => ?_⟩
  · cases ends.symm.trans (more (Nat.find_min' answered ⟨_, ends⟩))
    exact more enough
  · cases answer : g.attemptWithin t k g.entry start (.fresh g .unlimited start) with
    | ok a => exact absurd ⟨a, answer⟩ (Nat.find_min answered fewer)
    | error fault =>
      rw [compiled.attemptWithin_fault (compiled.fresh_sound valid _) answer]

theorem run_of_attemptAt (valid : t.isBoundary start = true) {o : MatchOptions} {u : MatchState}
    {verdict : Verdict} (ok : g.attemptAt t start (.fresh g o start) = .ok (verdict, u)) :
    g.run t start o = .ok verdict := by
  have matched : g.matchAt t start (.ofGraph g o) = .ok (verdict, u) := by
    rw [Graph.matchAt, Text.checkStart_ok valid]
    exact ok
  rw [Graph.run, matched]
  rfl

theorem takes (compiled : e.Compiled g) (valid : t.isBoundary start = true) :
    ∃ outcome polls nesting, g.Takes t start outcome polls nesting ∧
      ∀ options : MatchOptions, options.Untimed →
        (options.aborted = true → options.abortedFrom = 0) →
        ((∀ cause, ¬options.Trips polls nesting cause) ∧
            g.run t start options = .ok (.ok outcome)) ∨
          ∃ cause, options.Trips polls nesting cause ∧
            g.run t start options = .ok (.error (.halted cause)) := by
  obtain ⟨nesting, stop, w, free⟩ := compiled.unhindered valid
  obtain ⟨outcome, s, matched, _⟩ := compiled.matchAt_ends valid MatchOptions.unlimited_free
  have ended : g.attemptAt t start (.fresh g .unlimited start) = .ok (.ok outcome, s) := by
    rw [Graph.matchAt, Text.checkStart_ok valid] at matched
    exact matched
  have polls : s.budget.retriesInMatch = w.budget.retriesInMatch := by
    obtain ⟨stop', after, attempted, _, last⟩ := Graph.attemptAt_success ended
    cases free.ends.symm.trans attempted
    cases stop with
    | none => rw [last.2]
    | some q => rw [(Writes.setGroup _ _ _).budget last.1]
  refine ⟨outcome, _, nesting, ⟨⟨s, matched, polls⟩, fun k => ?_⟩, fun options untimed raised => ?_⟩
  · refine ⟨fun deeper => Nat.lt_of_not_le fun enough => ?_, free.beyond k⟩
    cases deeper.symm.trans (free.within k enough)
  · obtain ⟨r, u, attempted, _⟩ := compiled.attempt_safe (compiled.fresh_sound valid options)
    cases halt : u.budget.halt with
    | some cause =>
      exact .inr ⟨cause, free.of_halted untimed attempted halt,
        run_of_attemptAt valid (Graph.attemptAt_halted attempted halt)⟩
    | none =>
      have running : u.isHalted = false := by rw [MatchState.isHalted, Budget.isHalted, halt]; rfl
      have fits := free.of_running raised attempted running
      have again := Graph.attemptAt_withOptions (o := options) ended fun stop' after first _ => by
        cases free.ends.symm.trans first
        exact free.of_within untimed fits
      exact .inl ⟨fits, run_of_attemptAt valid again⟩

end Expr.Compiled

/-- Limits cut a match off or leave it as it is, when the clock never runs out and the flag is
raised beforehand if at all. A match ends as it does without limits exactly if what it takes then
exceeds none of them; otherwise it is given up over one of those that are exceeded. A search that is
not given up ends as it does without limits, and in the same way under looser ones. -/
theorem Expr.limits_cut_off {e : Expr} {g : Graph} (ok : e.compile = .ok g) {t : Text} {start : Nat}
    (valid : t.isBoundary start = true) :
    (∃ outcome polls nesting, g.Takes t start outcome polls nesting ∧
      ∀ options : MatchOptions, options.Untimed →
        (options.aborted = true → options.abortedFrom = 0) →
        (g.run t start options = .ok (.ok outcome) ↔
          ∀ cause, ¬options.Trips polls nesting cause) ∧
        ((∃ cause, options.Trips polls nesting cause) → ∃ cause,
          options.Trips polls nesting cause ∧
            g.run t start options = .ok (.error (.halted cause)))) ∧
    ∀ options outcome, g.search t start options = .ok (.ok outcome) →
      g.search t start .unlimited = .ok (.ok outcome) ∧
      ∀ o : MatchOptions, o.Looser options → g.search t start o = .ok (.ok outcome) := by
  have compiled := compile_compiled ok
  constructor
  · obtain ⟨outcome, polls, nesting, takes, limited⟩ := compiled.takes valid
    refine ⟨outcome, polls, nesting, takes, fun options untimed raised => ?_⟩
    obtain ⟨fits, ended⟩ | ⟨cause, tripped, ended⟩ := limited options untimed raised
    · exact ⟨⟨fun _ => fits, fun _ => ended⟩, fun ⟨cause, tripped⟩ => absurd tripped (fits cause)⟩
    · refine ⟨⟨fun other => ?_, fun fits => absurd tripped (fits cause)⟩,
        fun _ => ⟨cause, tripped, ended⟩⟩
      cases ended.symm.trans other
  · intro options outcome found
    have looser (o : MatchOptions) (looser : o.Looser options) :
        g.search t start o = .ok (.ok outcome) := by
      obtain ⟨⟨verdict, s⟩, searched, same⟩ := bind_success found
      cases same
      rw [Graph.searchWith, Text.checkStart_ok valid] at searched
      have again : g.searchWith t start (.ofGraph g o) = .ok (.ok outcome, s.withOptions o) := by
        rw [Graph.searchWith, Text.checkStart_ok valid]
        exact Graph.searchFrom_looser (s := .ofGraph g options) looser searched
      rw [Graph.search, again]
      rfl
    exact ⟨looser _ (MatchOptions.unlimited_looser options), looser⟩

theorem Expr.limits_cut_off_exactly : ∃ g, (repetition (group .capture (literal "a" false)) 0 none
      .greedy).compile = .ok g ∧
    g.run ⟨"aa", by decide⟩ 0 { matchStack := 11, retriesInMatch := 6 } =
      .ok (.ok (.matched ⟨⟨"aa", by decide⟩, #[some ⟨0, 2⟩, some ⟨1, 2⟩]⟩)) ∧
    g.run ⟨"aa", by decide⟩ 0 { matchStack := 11, retriesInMatch := 5 } =
      .ok (.error (.halted .retriesInMatch)) ∧
    g.run ⟨"aa", by decide⟩ 0 { matchStack := 10, retriesInMatch := 6 } =
      .ok (.error (.halted .matchStack)) := by
  let t : Text := ⟨"aa", by decide⟩
  let g : Graph := ⟨#[.succeed, .loop ⟨0, 5, 0, none, true, 0⟩, .loopTail 1, .groupEnd 1 (some 1) 2,
    .literal "a" false 3, .group 1 (some 1) [4] 2], 1, 1, 2, none⟩
  have ok : (repetition (group .capture (literal "a" false)) 0 none .greedy).compile = .ok g := rfl
  have matched : g.matchAt t 0 (.ofGraph g .unlimited) = .ok (.ok (.matched ⟨t, #[some ⟨0, 2⟩,
      some ⟨1, 2⟩]⟩), ⟨⟨#[some 1, some 1], #[2, 0], #[some 0, some 1], #[some 2, some 2], 0⟩,
        ⟨.unlimited, 0, 6, 6, none⟩⟩) := by decide +kernel
  obtain ⟨⟨_, _, nesting, ⟨⟨s, ends, rfl⟩, nests⟩, limited⟩, _⟩ :=
    limits_cut_off ok (t := t) (by decide : t.isBoundary 0 = true)
  cases matched.symm.trans ends
  have deep : 10 < nesting := (nests 10).mp (by decide +kernel)
  have flat : ¬11 < nesting := fun deeper => absurd ((nests 11).mpr deeper) (by decide +kernel)
  obtain rfl : nesting = 11 := by omega
  refine ⟨g, ok, ?_, ?_, ?_⟩
  · refine (limited { matchStack := 11, retriesInMatch := 6 } (MatchOptions.untimed_of_time rfl)
      nofun).1.mpr ?_
    rintro (_ | _ | _ | _ | _) <;> simp [MatchOptions.Trips]
  · obtain ⟨cause, tripped, run⟩ := (limited { matchStack := 11, retriesInMatch := 5 }
      (MatchOptions.untimed_of_time rfl) nofun).2 ⟨.retriesInMatch, by simp [MatchOptions.Trips]⟩
    cases cause <;> simp [MatchOptions.Trips] at tripped
    exact run
  · obtain ⟨cause, tripped, run⟩ := (limited { matchStack := 10, retriesInMatch := 6 }
      (MatchOptions.untimed_of_time rfl) nofun).2 ⟨.matchStack, by simp [MatchOptions.Trips]⟩
    cases cause <;> simp [MatchOptions.Trips] at tripped
    exact run

end BacktrackRegex
