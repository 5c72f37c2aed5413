import Mathlib.Control.Monad.Basic
import BacktrackRegex.Proofs.LeadBytes
import BacktrackRegex.Proofs.Meaning
import BacktrackRegex.Proofs.Repeats

/-! Searching is scanning. The plain scan attempts every boundary in turn. A search passes over
those where the lead byte does not stand, and makes fewer polls, but finds what the scan finds. -/
namespace BacktrackRegex

namespace Text

def boundariesFrom (t : Text) (start : Nat) : List Nat :=
  (List.range' start (t.size + 1 - start)).filter t.isBoundary

variable {t : Text} {p q r : Nat}

theorem mem_boundariesFrom : r ∈ t.boundariesFrom p ↔ p ≤ r ∧ t.isBoundary r = true := by
  simp only [boundariesFrom, List.mem_filter, List.mem_range'_1]
  constructor
  · rintro ⟨⟨low, _⟩, valid⟩
    exact ⟨low, valid⟩
  · rintro ⟨low, valid⟩
    have := le_size_of_isBoundary valid
    exact ⟨⟨low, by omega⟩, valid⟩

theorem boundariesFrom_succ (inside : p ≤ t.size) : t.boundariesFrom p =
    if t.isBoundary p then p :: t.boundariesFrom (p + 1) else t.boundariesFrom (p + 1) := by
  have more : t.size + 1 - p = t.size + 1 - (p + 1) + 1 := by omega
  rw [boundariesFrom, more, List.range'_succ, List.filter_cons]
  rfl

theorem boundariesFrom_split (t : Text) (le : p ≤ q) (inside : q ≤ t.size) :
    ∃ before, t.boundariesFrom p = before ++ t.boundariesFrom q ∧
      ∀ r ∈ before, p ≤ r ∧ r < q ∧ t.isBoundary r = true := by
  refine ⟨(List.range' p (q - p)).filter t.isBoundary, ?_, fun r member => ?_⟩
  · have whole : t.size + 1 - p = (q - p) + (t.size + 1 - q) := by omega
    have stops : p + (q - p) = q := by omega
    rw [boundariesFrom, whole, ← List.range'_append_1, List.filter_append, stops]
    rfl
  · obtain ⟨within, valid⟩ := List.mem_filter.mp member
    have ⟨low, high⟩ := List.mem_range'_1.mp within
    exact ⟨low, by omega, valid⟩

theorem next_le_of_charAt {c : Char} (read : t.charAt p = .ok (some c))
    (valid : t.isBoundary r = true) (later : p < r) : p + c.utf8Size ≤ r := by
  unfold charAt boundary at read
  split at read
  · next here =>
    have found : (t.string.pos ⟨p⟩ here).get? = some c := Except.ok.inj read
    rw [String.Pos.get?_eq_dif] at found
    split at found
    · cases found
    · next inside =>
      cases found
      have next : (t.string.pos ⟨p⟩ here).next inside ≤
          t.string.pos ⟨r⟩ (isBoundary_iff.mp valid) := String.Pos.next_le_of_lt later
      rw [String.Pos.le_iff, String.Pos.offset_next] at next
      exact next
  · cases read

theorem boundariesFrom_charAt {c : Char} (read : t.charAt p = .ok (some c)) :
    t.boundariesFrom p = p :: t.boundariesFrom (p + c.utf8Size) := by
  obtain ⟨here, there⟩ := charAt_next read
  have inside := le_size_of_isBoundary there
  have wide := c.utf8Size_pos
  obtain ⟨before, split, between⟩ := boundariesFrom_split t (show p + 1 ≤ p + c.utf8Size by omega)
    inside
  have nothing : before = [] := by
    apply List.eq_nil_iff_forall_not_mem.mpr
    intro r member
    obtain ⟨low, high, valid⟩ := between r member
    have := next_le_of_charAt read valid low
    omega
  rw [boundariesFrom_succ (by omega), if_pos here, split, nothing, List.nil_append]

theorem boundariesFrom_end (read : t.charAt p = .ok none) : t.boundariesFrom p = [p] := by
  unfold charAt boundary at read
  split at read
  · next here =>
    have nothing : (t.string.pos ⟨p⟩ here).get? = none := Except.ok.inj read
    rw [String.Pos.get?_eq_dif] at nothing
    split at nothing
    · next last =>
      have atEnd : p = t.size := congrArg (fun q => q.offset.byteIdx) last
      subst atEnd
      rw [boundariesFrom_succ (Nat.le_refl _), if_pos (isBoundary_iff.mpr here), boundariesFrom,
        Nat.sub_self]
      rfl
    · cases nothing
  · cases read

end Text

namespace Graph

variable {g : Graph} {t : Text} {origin p : Nat} {s s' u u' : MatchState} {outcome : Outcome}

/-- The plain scan: an attempt at each offset in turn, in cleared registers, up to the first one
that matches or is given up. -/
def scan (g : Graph) (t : Text) (origin : Nat) : List Nat → MatchState →
    Except Fault (Verdict × MatchState)
  | [], s => return (.ok .noMatch, s)
  | p :: later, s => do
    match ← g.attemptAt t p (s.resetAttempt origin) with
    | (.ok .noMatch, s) => g.scan t origin later s
    | (verdict, s) => return (verdict, s)

theorem attemptAt_cases {verdict : Verdict} (ok : g.attemptAt t p s = .ok (verdict, u)) :
    ∃ stop after, g.attempt t g.entry p s = .ok (stop, after) ∧
      ((∃ cause, after.budget.halt = some cause ∧ verdict = .error (.halted cause) ∧
          u = { after with budget := { after.budget with halt := none } }) ∨
        (after.isHalted = false ∧ stop = none ∧ verdict = .ok .noMatch ∧ u = after) ∨
        (after.isHalted = false ∧ ∃ q, stop = some q ∧
          after.setGroup 0 (some p) (some q) = .ok u ∧
          verdict = .ok (.matched (.ofState t u)))) := by
  obtain ⟨⟨stop, after⟩, attempted, ok⟩ := bind_success ok
  refine ⟨stop, after, attempted, ?_⟩
  cases halt : after.budget.halt with
  | some cause =>
    simp only [MatchState.takeHalt, halt] at ok
    cases ok
    exact .inl ⟨cause, rfl, rfl, rfl⟩
  | none =>
    have running : after.budget.isHalted = false := by rw [Budget.isHalted, halt]; rfl
    simp only [MatchState.takeHalt_running running] at ok
    cases stop with
    | none =>
      cases ok
      exact .inr (.inl ⟨running, rfl, rfl, rfl⟩)
    | some q =>
      obtain ⟨last, wrote, ok⟩ := bind_success ok
      cases ok
      exact .inr (.inr ⟨running, q, rfl, wrote, rfl⟩)

theorem attemptAt_success (ok : g.attemptAt t p s = .ok (.ok outcome, u)) :
    ∃ stop after, g.attempt t g.entry p s = .ok (stop, after) ∧ after.isHalted = false ∧
      match stop with
      | none => outcome = .noMatch ∧ u = after
      | some q =>
        after.setGroup 0 (some p) (some q) = .ok u ∧ outcome = .matched (.ofState t u) := by
  obtain ⟨stop, after, attempted, ⟨_, _, failed, _⟩ | ⟨running, rfl, same, rfl⟩ |
    ⟨running, q, rfl, wrote, same⟩⟩ := attemptAt_cases ok
  · cases failed
  · cases same
    exact ⟨none, u, attempted, running, rfl, rfl⟩
  · cases same
    exact ⟨some q, after, attempted, running, wrote, rfl⟩

theorem attemptAt_again (trails : s.Trails s') (ok : g.attemptAt t p s' = .ok (.ok outcome, u')) :
    ∃ u, g.attemptAt t p s = .ok (.ok outcome, u) ∧ u.Trails u' := by
  obtain ⟨stop, after', attempted', running', ended⟩ := attemptAt_success ok
  obtain ⟨after, attempted, together⟩ :=
    (attemptWithin_repeats g t (g.nestingBound t) g.entry p).again trails attempted' running'
  have running : after.budget.isHalted = false := together.budget.running
  have attempted : g.attempt t g.entry p s = .ok (stop, after) := attempted
  simp only [attemptAt, attempted, MatchState.takeHalt_running running, bind, Except.bind]
  cases stop with
  | none =>
    obtain ⟨rfl, rfl⟩ := ended
    exact ⟨after, rfl, together⟩
  | some q =>
    obtain ⟨wrote', rfl⟩ := ended
    obtain ⟨u, wrote, further⟩ := (Writes.setGroup 0 (some p) (some q)).again
      ⟨together.regs, together.budget⟩ wrote'
    have same : Captures.ofState t u = Captures.ofState t u' := by
      rw [Captures.ofState, further.regs, Captures.ofState]
    refine ⟨u, ?_, further.regs, further.budget⟩
    simp only [wrote, same]
    rfl

end Graph

namespace Registers

theorem clear_clear (r : Registers) (origin origin' : Nat) :
    (r.clear origin).clear origin' = r.clear origin' := by
  simp [clear, Function.comp_def]

theorem SameShape.clear {r r' : Registers} (same : r.SameShape r') (origin : Nat) :
    r'.clear origin = r.clear origin := by
  simp [Registers.clear, Array.map_const', same.consumed, same.counts, same.starts, same.ends]

end Registers

namespace MatchState

variable {s s' u u' : MatchState}

theorem Trails.self (trails : s.Trails s') : s'.Trails s' := by
  have running := trails.budget.running'
  have budget : s'.budget.Trails s'.budget :=
    ⟨rfl, rfl, rfl, Nat.le_refl _, running, running, trails.budget.calm⟩
  exact ⟨rfl, budget⟩

def Behind (s s' : MatchState) : Prop :=
  ∀ origin, (s.resetAttempt origin).Trails (s'.resetAttempt origin)

theorem Trails.behind (trails : s.Trails s') : s.Behind s' := by
  intro origin
  exact ⟨congrArg (·.clear origin) trails.regs,
    { trails.budget with depth := rfl, inMatch := rfl }⟩

theorem Behind.pass {g : Graph} {t : Text} {origin p : Nat} (behind : s.Behind s')
    (enclosing : g.Enclosing)
    (ok : g.attemptAt t p (s'.resetAttempt origin) = .ok (.ok .noMatch, u')) : s.Behind u' := by
  have trails := behind origin
  obtain ⟨stop, after, attempted, running, ended⟩ := Graph.attemptAt_success ok
  cases stop with
  | some q => cases ended.2
  | none =>
    obtain ⟨_, rfl⟩ := ended
    have tidy := attemptWithin_tidy enclosing _ attempted
    obtain ⟨_, same, together⟩ :=
      (attemptWithin_repeats g t (g.nestingBound t) g.entry p).again trails.self attempted running
    cases attempted.symm.trans same
    intro origin'
    refine ⟨?_, trails.budget.options.trans tidy.spends.options.symm, rfl, rfl,
      Nat.le_trans trails.budget.inSearch tidy.spends.searched.1, trails.budget.running, running,
      together.budget.calm⟩
    calc
      s.regs.clear origin' = (s.regs.clear origin).clear origin' :=
        (Registers.clear_clear _ _ _).symm
      _ = (s'.regs.clear origin).clear origin' := congrArg (·.clear origin') trails.regs
      _ = u'.regs.clear origin' := (tidy.shape.clear origin').symm

end MatchState

namespace Graph

variable {g : Graph} {t : Text} {origin p q : Nat} {s s' u u' : MatchState} {outcome : Outcome}

theorem searchFrom_none (missing : g.candidate? t p = none) :
    g.searchFrom t origin p s = .ok (.ok .noMatch, s) := by
  unfold searchFrom
  split
  · rfl
  · next found => cases missing.symm.trans found

def searchOn (g : Graph) (t : Text) (origin q : Nat) (s : MatchState) :
    Verdict → Except Fault (Verdict × MatchState)
  | .ok .noMatch =>
    match t.charAt q with
    | .ok (some c) => g.searchFrom t origin (q + c.utf8Size) s
    | .ok none => .ok (.ok .noMatch, s)
    | .error f => .error f
  | verdict => .ok (verdict, s)

theorem searchFrom_found (found : g.candidate? t p = some q) :
    g.searchFrom t origin p s = g.attemptAt t q (s.resetAttempt origin) >>= fun (verdict, u) =>
      g.searchOn t origin q u verdict := by
  rw [searchFrom]
  split
  · next missing => cases missing.symm.trans found
  · next found' =>
    cases found.symm.trans found'
    cases g.attemptAt t q (s.resetAttempt origin) with
    | error f => rfl
    | ok answer =>
      obtain ⟨verdict, u⟩ := answer
      cases verdict with
      | error e => rfl
      | ok outcome =>
        cases outcome with
        | matched captures => rfl
        | noMatch =>
          simp only [searchOn, bind, Except.bind]
          split
          · next read => rw [read]
          · next read => rw [read]; rfl
          · next read => rw [read]; rfl

theorem searchFrom_some {verdict : Verdict} (found : g.candidate? t p = some q)
    (attempted : g.attemptAt t q (s.resetAttempt origin) = .ok (verdict, u)) :
    g.searchFrom t origin p s = g.searchOn t origin q u verdict := by
  rw [searchFrom_found found, attempted, ok_bind]

theorem searchFrom_success {verdict : Verdict}
    (ok : g.searchFrom t origin p s = .ok (verdict, u)) :
    (g.candidate? t p = none ∧ verdict = .ok .noMatch ∧ u = s) ∨
      ∃ q first after, g.candidate? t p = some q ∧
        g.attemptAt t q (s.resetAttempt origin) = .ok (first, after) ∧
        g.searchOn t origin q after first = .ok (verdict, u) := by
  cases found : g.candidate? t p with
  | none =>
    cases (searchFrom_none found).symm.trans ok
    exact .inl ⟨rfl, rfl, rfl⟩
  | some q =>
    rw [searchFrom_found found] at ok
    obtain ⟨⟨first, after⟩, attempted, ok⟩ := bind_success ok
    exact .inr ⟨q, first, after, rfl, attempted, ok⟩

theorem searchOn_success {first verdict : Verdict}
    (ok : g.searchOn t origin q s first = .ok (verdict, u)) :
    (verdict = first ∧ u = s ∧ ∀ s', g.searchOn t origin q s' first = .ok (first, s')) ∨
      (first = .ok .noMatch ∧ ∃ c, t.charAt q = .ok (some c) ∧
        g.searchFrom t origin (q + c.utf8Size) s = .ok (verdict, u)) := by
  rcases first with e | captures | _
  · cases ok
    exact .inl ⟨rfl, rfl, fun _ => rfl⟩
  · cases ok
    exact .inl ⟨rfl, rfl, fun _ => rfl⟩
  · rw [searchOn] at ok
    split at ok
    · next c read => exact .inr ⟨rfl, c, read, ok⟩
    · next read =>
      cases ok
      refine .inl ⟨rfl, rfl, fun s' => ?_⟩
      rw [searchOn, read]
    · cases ok

theorem scan_cons {later : List Nat}
    (ok : g.scan t origin (p :: later) s = .ok (.ok outcome, u)) :
    (∃ captures, outcome = .matched captures ∧
      g.attemptAt t p (s.resetAttempt origin) = .ok (.ok outcome, u)) ∨
    ∃ after, g.attemptAt t p (s.resetAttempt origin) = .ok (.ok .noMatch, after) ∧
      g.scan t origin later after = .ok (.ok outcome, u) := by
  obtain ⟨⟨verdict, after⟩, attempted, ok⟩ := bind_success ok
  match verdict with
  | .error e => cases ok
  | .ok (.matched captures) =>
    cases ok
    exact .inl ⟨captures, rfl, attempted⟩
  | .ok .noMatch => exact .inr ⟨after, attempted, ok⟩

theorem scan_append (enclosing : g.Enclosing) {before later : List Nat} (behind : s.Behind s')
    (hopeless : ∀ r ∈ before, ∀ {s u captures},
      g.attemptAt t r s ≠ .ok (.ok (.matched captures), u))
    (ok : g.scan t origin (before ++ later) s' = .ok (.ok outcome, u')) :
    ∃ after, s.Behind after ∧ g.scan t origin later after = .ok (.ok outcome, u') := by
  induction before generalizing s' with
  | nil => exact ⟨s', behind, ok⟩
  | cons r before ih =>
    obtain ⟨captures, rfl, attempted⟩ | ⟨after, attempted, ok⟩ := scan_cons ok
    · exact absurd attempted (hopeless r List.mem_cons_self)
    · exact ih (behind.pass enclosing attempted)
        (fun r member => hopeless r (List.mem_cons_of_mem _ member)) ok

theorem attemptAt_hopeless {b : UInt8} {captures : Captures}
    (lead : Node.leadByte? g.nodes g.size g.entry = some b)
    (other : Text.byte? t.string p ≠ some b) :
    g.attemptAt t p s ≠ .ok (.ok (.matched captures), u) := by
  intro ok
  obtain ⟨stop, after, attempted, _, ended⟩ := attemptAt_success ok
  cases stop with
  | none => cases ended.1
  | some q => exact other (attemptWithin_leads lead (g.nestingBound t) p attempted)

theorem candidate?_none {captures : Captures} {r : Nat}
    (shown : g.leadByte = Node.leadByte? g.nodes g.size g.entry)
    (missing : g.candidate? t p = none) (low : p ≤ r) :
    g.attemptAt t r s ≠ .ok (.ok (.matched captures), u) := by
  unfold candidate? at missing
  split at missing
  · next b lead => exact attemptAt_hopeless (shown ▸ lead) (Text.findByte_none missing low)
  · cases missing

theorem candidate?_some (shown : g.leadByte = Node.leadByte? g.nodes g.size g.entry)
    (valid : t.isBoundary p = true) (found : g.candidate? t p = some q) :
    t.isBoundary q = true ∧ ∀ r, p ≤ r → r < q → ∀ {s u captures},
      g.attemptAt t r s ≠ .ok (.ok (.matched captures), u) := by
  unfold candidate? at found
  split at found
  · next b lead =>
    obtain ⟨here, between⟩ := Text.findByte_some found
    rw [shown] at lead
    obtain ⟨text, first⟩ := leadByte?_first lead
    exact ⟨Text.isBoundary_of_byte first here,
      fun r low high => attemptAt_hopeless lead (between r low high)⟩
  · cases found
    exact ⟨valid, by omega⟩

/-- A search finds what the scan finds. The induction is on the text that is left. -/
theorem searchFrom_of_scan (enclosing : g.Enclosing)
    (shown : g.leadByte = Node.leadByte? g.nodes g.size g.entry) (valid : t.isBoundary p = true)
    (behind : s.Behind s')
    (ok : g.scan t origin (t.boundariesFrom p) s' = .ok (.ok outcome, u')) :
    ∃ u, g.searchFrom t origin p s = .ok (.ok outcome, u) := by
  induction left : t.size - p using Nat.strongRecOn generalizing p s s' with
  | ind left ih =>
  cases found : g.candidate? t p with
  | none =>
    rw [← List.append_nil (t.boundariesFrom p)] at ok
    obtain ⟨_, _, ok⟩ := scan_append enclosing behind
      (fun r member => candidate?_none shown found (Text.mem_boundariesFrom.mp member).1) ok
    cases ok
    exact ⟨s, searchFrom_none found⟩
  | some q =>
    obtain ⟨there, between⟩ := candidate?_some shown valid found
    obtain ⟨before, split, within⟩ := Text.boundariesFrom_split t (le_of_candidate? found)
      (Text.le_size_of_isBoundary there)
    rw [split] at ok
    obtain ⟨after', behind', ok⟩ := scan_append enclosing behind
      (fun r member => between r (within r member).1 (within r member).2.1) ok
    obtain ⟨read, here⟩ := Text.charAt_ok there
    have later : t.boundariesFrom q = q :: (t.boundariesFrom q).tail := by
      cases read with
      | none => rw [Text.boundariesFrom_end here]; rfl
      | some c => rw [Text.boundariesFrom_charAt here]; rfl
    rw [later] at ok
    obtain ⟨captures, rfl, attempted'⟩ | ⟨next', attempted', ok⟩ := scan_cons ok
    · obtain ⟨u, attempted, _⟩ := attemptAt_again (behind' origin) attempted'
      exact ⟨u, searchFrom_some found attempted⟩
    · obtain ⟨next, attempted, together⟩ := attemptAt_again (behind' origin) attempted'
      cases read with
      | none =>
        rw [Text.boundariesFrom_end here] at ok
        cases ok
        exact ⟨next, by rw [searchFrom_some found attempted, searchOn, here]⟩
      | some c =>
        rw [Text.boundariesFrom_charAt here, List.tail_cons] at ok
        have less := Text.left_lt_of_charAt (le_of_candidate? found) here
        rw [searchFrom_some found attempted, searchOn, here]
        exact ih _ (left ▸ less) (Text.charAt_next here).2 together.behind ok rfl

end Graph

namespace Expr

mutual
def usesOrigin : Expr → Bool
  | anchor condition => condition == .startPosition
  | concat items => usesOriginAny items
  | alternation branches => usesOriginAny branches
  | group _ body => body.usesOrigin
  | repetition body _ _ _ => body.usesOrigin
  | _ => false
def usesOriginAny : List Expr → Bool
  | [] => false
  | e :: es => e.usesOrigin || usesOriginAny es
end

mutual
theorem ways_origin {t : Text} (origin origin' : Nat) : ∀ (e : Expr), e.usesOrigin = false →
    e.ways t origin = e.ways t origin'
  | empty, _ | literal _ _, _ | charClass _, _ | backReference _ _, _ => by
    funext cap p held
    simp only [ways]
  | anchor condition, unused => by
    funext cap p held
    cases condition with
    | startPosition => cases unused
    | _ => simp only [ways, Anchor.holdsAt]
  | concat items, unused => by
    funext cap p held
    simp only [usesOrigin] at unused
    simp only [ways, waysAll_origin origin origin' items unused]
  | alternation branches, unused => by
    funext cap p held
    simp only [usesOrigin] at unused
    simp only [ways, waysAny_origin origin origin' branches unused]
  | group kind body, unused => by
    funext cap p held
    simp only [usesOrigin] at unused
    cases kind <;> simp only [ways, ways_origin origin origin' body unused]
  | repetition body min max kind, unused => by
    funext cap p held
    simp only [usesOrigin] at unused
    simp only [ways, ways_origin origin origin' body unused]
theorem waysAll_origin {t : Text} (origin origin' : Nat) : ∀ (items : List Expr),
    usesOriginAny items = false → waysAll t origin items = waysAll t origin' items
  | [], _ => by
    funext cap p held
    simp only [waysAll]
  | item :: items, unused => by
    funext cap p held
    simp only [usesOriginAny, Bool.or_eq_false_iff] at unused
    simp only [waysAll, ways_origin origin origin' item unused.1,
      waysAll_origin origin origin' items unused.2]
theorem waysAny_origin {t : Text} (origin origin' : Nat) : ∀ (branches : List Expr),
    usesOriginAny branches = false → waysAny t origin branches = waysAny t origin' branches
  | [], _ => by
    funext cap p held
    simp only [waysAny]
  | branch :: branches, unused => by
    funext cap p held
    simp only [usesOriginAny, Bool.or_eq_false_iff] at unused
    simp only [waysAny, ways_origin origin origin' branch unused.1,
      waysAny_origin origin origin' branches unused.2]
end

end Expr

namespace Expr.Compiled

variable {e : Expr} {g : Graph} {t : Text} {origin : Nat} {s : MatchState}

theorem scan_eq (compiled : e.Compiled g) {ps : List Nat}
    (valid : ∀ p ∈ ps, t.isBoundary p = true) {before : Nat} (fitted : Fitted g before s.regs)
    (running : s.budget.isHalted = false) (unlimited : s.budget.options.Unlimited) :
    ∃ u, g.scan t origin ps s =
      .ok (.ok (.ofHeld? t (ps.findSome? (e.firstHeld? t origin))), u) := by
  induction ps generalizing s before with
  | nil => exact ⟨s, rfl⟩
  | cons p ps ih =>
    have ready := MatchState.resetAttempt_ready (t := t) fitted running unlimited origin
    obtain ⟨u, attempted, fitted', running', options⟩ :=
      compiled.attemptAt_eq (valid p List.mem_cons_self) ready (fitted.held_clear origin)
    have unlimited' : u.budget.options.Unlimited := options ▸ unlimited
    unfold Graph.scan
    rw [attempted, List.findSome?_cons]
    cases e.firstHeld? t origin p with
    | some held => exact ⟨u, rfl⟩
    | none =>
      exact ih (fun q member => valid q (List.mem_cons_of_mem _ member)) fitted' running' unlimited'

theorem scan_ofGraph (compiled : e.Compiled g) {options : MatchOptions}
    (unlimited : options.Unlimited) (start : Nat) :
    ∃ u, g.scan t start (t.boundariesFrom start) (.ofGraph g options) =
      .ok (.ok (.ofHeld? t ((t.boundariesFrom start).findSome? (e.firstHeld? t start))), u) := by
  have fitted : Fitted g 0 (MatchState.ofGraph g options).regs := .unset g 0
  exact compiled.scan_eq (fun p member => (Text.mem_boundariesFrom.mp member).2) fitted rfl
    unlimited

theorem searchWith_of_scan (compiled : e.Compiled g) {start : Nat}
    (valid : t.isBoundary start = true) {options : MatchOptions} {outcome : Outcome}
    (ok : g.scan t start (t.boundariesFrom start) (.ofGraph g options) = .ok (.ok outcome, s)) :
    ∃ u, g.searchWith t start (.ofGraph g options) = .ok (.ok outcome, u) := by
  have behind : (MatchState.ofGraph g options).Behind (.ofGraph g options) := fun _ =>
    ⟨rfl, rfl, rfl, rfl, Nat.le_refl _, rfl, rfl, fun _ pos le => absurd pos (Nat.not_lt.mpr le)⟩
  obtain ⟨u, searched⟩ :=
    Graph.searchFrom_of_scan compiled.enclosing compiled.leadByte valid behind ok
  refine ⟨u, ?_⟩
  rw [Graph.searchWith, Text.checkStart_ok valid]
  exact searched

theorem search_of_scan (compiled : e.Compiled g) {start : Nat} (valid : t.isBoundary start = true)
    {options : MatchOptions} {outcome : Outcome}
    (ok : g.scan t start (t.boundariesFrom start) (.ofGraph g options) = .ok (.ok outcome, s)) :
    g.search t start options = .ok (.ok outcome) := by
  obtain ⟨u, searched⟩ := compiled.searchWith_of_scan valid ok
  rw [Graph.search, searched]
  rfl

end Expr.Compiled

end BacktrackRegex
