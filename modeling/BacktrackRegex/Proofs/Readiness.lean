import BacktrackRegex.Proofs.Rollback
import BacktrackRegex.Proofs.Ways

/-! States in which matching raises no fault: all registers are there, the captures hold pieces of
the text and no limit is set. -/
namespace BacktrackRegex

namespace Registers

def held (r : Registers) : Holdings :=
  (r.starts.zipWith (fun start stop => return ⟨← start, ← stop⟩) r.ends).toList

theorem held_putGroup (r : Registers) (n p q : Nat) :
    (r.putGroup n (some p) (some q)).held = r.held.set n (some ⟨p, q⟩) := by
  apply List.ext_getElem?
  intro i
  rw [List.getElem?_set]
  simp only [held, putGroup, Array.getElem?_toList, Array.getElem?_zipWith, Array.length_toList,
    Array.size_zipWith, Array.getElem?_setIfInBounds]
  by_cases here : n = i
  · subst here
    have both : n < min r.starts.size r.ends.size ↔ n < r.starts.size ∧ n < r.ends.size :=
      Nat.lt_min
    by_cases starts : n < r.starts.size <;> by_cases ends : n < r.ends.size <;>
      simp [both, starts, ends]
  · simp [here]

theorem group_eq {r : Registers} {n : Nat} (starts : n < r.starts.size) (ends : n < r.ends.size) :
    r.group n = .ok (r.held[n]?.join) := by
  have entry : r.held[n]? = some (do return ⟨← r.starts[n], ← r.ends[n]⟩) := by
    rw [held, Array.getElem?_toList, Array.getElem?_zipWith, Array.getElem?_eq_getElem starts,
      Array.getElem?_eq_getElem ends]
  rw [entry]
  simp only [group, read, starts, ends, getElem?_pos, bind, Except.bind]
  cases r.starts[n] <;> cases r.ends[n] <;> rfl

end Registers

namespace Text

theorem boundary_ok {t : Text} {p : Nat} (valid : t.isBoundary p = true) :
    ∃ q, t.boundary p = .ok q ∧ q.offset = ⟨p⟩ := by
  unfold boundary
  rw [dif_pos (isBoundary_iff.mp valid)]
  exact ⟨_, rfl, rfl⟩

theorem charAt_ok {t : Text} {p : Nat} (valid : t.isBoundary p = true) :
    ∃ found, t.charAt p = .ok found := by
  obtain ⟨q, taken, _⟩ := boundary_ok valid
  exact ⟨q.get?, by rw [charAt, taken]; rfl⟩

theorem charBefore_ok {t : Text} {p : Nat} (valid : t.isBoundary p = true) :
    ∃ found, t.charBefore p = .ok found := by
  obtain ⟨q, taken, _⟩ := boundary_ok valid
  exact ⟨_, by rw [charBefore, taken]; rfl⟩

theorem byteAt_ok {t : Text} {p : Nat} (inside : p < t.size) : ∃ b, t.byteAt p = .ok b := by
  have before : p < t.string.utf8ByteSize := inside
  unfold byteAt byte?
  rw [dif_pos before]
  exact ⟨_, rfl⟩

theorem slice_ok {t : Text} {s : Span} (piece : t.Piece s) :
    ∃ text, t.slice s.start s.stop = .ok text := by
  obtain ⟨p, begun, offset⟩ := boundary_ok piece.start
  obtain ⟨q, ended, offset'⟩ := boundary_ok piece.stop
  have le : p ≤ q := by
    rw [String.Pos.le_iff, offset, offset']
    exact piece.ordered
  refine ⟨t.string.extract p q, ?_⟩
  simp only [slice, begun, ended, bind, Except.bind, le, if_true]
  rfl

end Text

theorem foldedEnd_ok {t : Text} {cs : List Char} {p : Nat} (valid : t.isBoundary p = true) :
    ∃ found, foldedEnd t cs p = .ok found := by
  induction cs generalizing p with
  | nil => exact ⟨_, rfl⟩
  | cons c cs ih =>
    obtain ⟨found, read⟩ := Text.charAt_ok valid
    unfold foldedEnd
    simp only [read, bind, Except.bind]
    cases found with
    | none => exact ⟨_, rfl⟩
    | some d =>
      dsimp only
      split
      · exact ih (Text.charAt_next read).2
      · exact ⟨_, rfl⟩

theorem literalEnd_ok {t : Text} {piece : String} {ignoreCase : Bool} {p : Nat}
    (valid : t.isBoundary p = true) : ∃ found, literalEnd piece ignoreCase t p = .ok found := by
  obtain ⟨_, taken, _⟩ := Text.boundary_ok valid
  unfold literalEnd
  simp only [taken, bind, Except.bind]
  split
  · exact foldedEnd_ok valid
  · exact ⟨_, rfl⟩

theorem CharClass.endAt_ok {t : Text} {k : CharClass} {p : Nat} (valid : t.isBoundary p = true) :
    ∃ found, k.endAt t p = .ok found := by
  obtain ⟨found, read⟩ := Text.charAt_ok valid
  unfold endAt
  simp only [read, bind, Except.bind]
  cases found <;> exact ⟨_, rfl⟩

theorem backReferenceEnd_ok {t : Text} {captured : Option Span} {ignoreCase : Bool} {p : Nat}
    (valid : t.isBoundary p = true) (pieces : ∀ s, captured = some s → t.Piece s) :
    ∃ found, backReferenceEnd captured ignoreCase t p = .ok found := by
  cases captured with
  | none => exact ⟨_, rfl⟩
  | some s =>
    obtain ⟨text, cut⟩ := Text.slice_ok (pieces s rfl)
    simp only [backReferenceEnd, cut, bind, Except.bind]
    exact literalEnd_ok valid

theorem isWordBoundary_ok {t : Text} {p : Nat} (valid : t.isBoundary p = true) :
    ∃ found, isWordBoundary t p = .ok found := by
  obtain ⟨before, left⟩ := Text.charBefore_ok valid
  obtain ⟨after, right⟩ := Text.charAt_ok valid
  exact ⟨_, by simp only [isWordBoundary, left, right, bind, Except.bind]; rfl⟩

theorem Anchor.holdsAt_ok {t : Text} {a : Anchor} {p origin : Nat} (valid : t.isBoundary p = true) :
    ∃ found, a.holdsAt t p origin = .ok found := by
  have le := Text.le_size_of_isBoundary valid
  have byte {q : Nat} (inside : q < t.size) :
      ∃ found, (return (← t.byteAt q) == lineFeed : Except Fault Bool) = .ok found := by
    obtain ⟨b, read⟩ := Text.byteAt_ok inside
    exact ⟨_, by simp only [read, bind, Except.bind]; rfl⟩
  cases a <;> unfold holdsAt
  case wordBoundary => exact isWordBoundary_ok valid
  case notWordBoundary =>
    obtain ⟨found, same⟩ := isWordBoundary_ok valid
    exact ⟨_, by simp only [same, bind, Except.bind]; rfl⟩
  case endTextOptionalNewline =>
    dsimp only
    split
    · exact ⟨_, rfl⟩
    · split
      · exact byte (by omega)
      · exact ⟨_, rfl⟩
  case startLine =>
    dsimp only
    split
    · exact ⟨_, rfl⟩
    · exact byte (by omega)
  case endLine =>
    dsimp only
    split
    · exact ⟨_, rfl⟩
    · exact byte (by omega)
  all_goals exact ⟨_, rfl⟩

structure Fitted (g : Graph) (origin : Nat) (r : Registers) : Prop where
  consumed : r.consumed.size = g.slots
  counts : r.counts.size = g.slots
  starts : r.starts.size = g.captures + 1
  ends : r.ends.size = g.captures + 1
  origin : r.origin = origin

theorem Fitted.same {g : Graph} {origin : Nat} {r r' : Registers} (fitted : Fitted g origin r)
    (same : r.SameShape r') : Fitted g origin r' := by
  constructor
  case consumed => rw [same.consumed, fitted.consumed]
  case counts => rw [same.counts, fitted.counts]
  case starts => rw [same.starts, fitted.starts]
  case ends => rw [same.ends, fitted.ends]
  case origin => rw [same.origin, fitted.origin]

/-- A state in which no limit can trip, with all registers, whose captures hold pieces of the text.
-/
structure Ready (g : Graph) (t : Text) (origin : Nat) (s : MatchState) : Prop where
  fitted : Fitted g origin s.regs
  valid : s.regs.held.Valid t
  running : s.budget.isHalted = false
  unlimited : s.budget.options.Unlimited

namespace Ready

variable {g : Graph} {t : Text} {origin : Nat} {s s' : MatchState}

theorem write (ready : Ready g t origin s) {r : Registers} (shape : s.regs.SameShape r)
    (valid : r.held.Valid t) : Ready g t origin { s with regs := r } := by
  have fitted := ready.fitted.same shape
  exact ⟨fitted, valid, ready.running, ready.unlimited⟩

theorem after {F : Frame → Prop} {polls p : Nat} {found : Option Nat}
    (ready : Ready g t origin s) (tidy : Tidy t F polls p s found s')
    (valid : s'.regs.held.Valid t) : Ready g t origin s' := by
  have fitted := ready.fitted.same tidy.shape
  have running := tidy.spends.unlimited ready.unlimited ready.running
  have unlimited : s'.budget.options.Unlimited := tidy.spends.options ▸ ready.unlimited
  exact ⟨fitted, valid, running, unlimited⟩

theorem afterFailure {F : Frame → Prop} {polls p : Nat} (ready : Ready g t origin s)
    (tidy : Tidy t F polls p s none s') : Ready g t origin s' := by
  apply ready.after tidy
  rw [tidy.restored rfl]
  exact ready.valid

theorem proceed (ready : Ready g t origin s) :
    ∃ s', s.proceed = (true, s') ∧ s'.regs = s.regs ∧ Ready g t origin s' := by
  cases polled : s.proceed with
  | mk may s' =>
    have ⟨same, budget⟩ := MatchState.proceed_budget polled
    have spends := Budget.poll_spends budget
    have running := spends.unlimited ready.unlimited ready.running
    cases may with
    | false => rw [Budget.poll_halted budget] at running; cases running
    | true =>
      exact ⟨s', rfl, same, same ▸ ready.fitted, same ▸ ready.valid, running,
        spends.options ▸ ready.unlimited⟩

theorem enter (ready : Ready g t origin s) :
    ∃ s', s.enter = (true, s') ∧ s'.regs = s.regs ∧ Ready g t origin s' := by
  cases entered : s.enter with
  | mk may s' =>
    have ⟨same, budget⟩ := MatchState.enter_budget entered
    cases may with
    | false =>
      have ⟨halted, spends⟩ := Budget.enter_halted budget
      rw [spends.unlimited ready.unlimited ready.running] at halted
      cases halted
    | true =>
      obtain ⟨running, _, took⟩ := Budget.enter_granted budget
      exact ⟨s', rfl, same, same ▸ ready.fitted, same ▸ ready.valid, took ▸ running,
        took ▸ ready.unlimited⟩

end Ready

end BacktrackRegex
