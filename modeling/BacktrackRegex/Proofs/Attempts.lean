import BacktrackRegex.Attempt

/-! Taking attempts apart. An attempt is a chain of reads, writes and visits, so what it led to is
read off its links. -/
namespace BacktrackRegex

theorem bind_success {x : Except Fault α} {f : α → Except Fault β} {b : β}
    (ok : (x >>= f) = .ok b) : ∃ a, x = .ok a ∧ f a = .ok b := by
  cases x with
  | error e => cases ok
  | ok a => exact ⟨a, rfl, ok⟩

theorem ok_bind (a : α) (f : α → Except Fault β) : (Except.ok a >>= f) = f a := rfl

theorem pure_success {a b : α} (ok : (pure a : Except Fault α) = .ok b) : a = b := by
  injection ok

namespace Attempted

theorem orUndo_success {a : Attempted} {undo : MatchState → Except Fault MatchState}
    {r : Option Nat} {s : MatchState} (ok : a.orUndo undo = .ok (r, s)) :
    (∃ q, r = some q ∧ a = .ok (some q, s)) ∨
      (r = none ∧ ∃ before, a = .ok (none, before) ∧ undo before = .ok s) := by
  obtain ⟨⟨found, before⟩, answer, rest⟩ := bind_success ok
  cases found with
  | some q => cases pure_success rest; exact .inl ⟨q, rfl, answer⟩
  | none =>
    obtain ⟨after, undone, same⟩ := bind_success rest
    cases pure_success same
    exact .inr ⟨rfl, before, answer, undone⟩

theorem orUndo_some {a : Attempted} {undo : MatchState → Except Fault MatchState} {q : Nat}
    {s : MatchState} (ok : a.orUndo undo = .ok (some q, s)) : a = .ok (some q, s) := by
  obtain ⟨_, same, answer⟩ | ⟨failed, _⟩ := orUndo_success ok
  · cases same
    exact answer
  · cases failed

theorem orElse_success {a : Attempted} {other : MatchState → Attempted}
    {r : Option Nat} {s : MatchState} (ok : a.orElse other = .ok (r, s)) :
    (∃ q, r = some q ∧ a = .ok (some q, s)) ∨
      (∃ before, a = .ok (none, before) ∧ other before = .ok (r, s)) := by
  obtain ⟨⟨found, before⟩, answer, rest⟩ := bind_success ok
  cases found with
  | some q => cases pure_success rest; exact .inl ⟨q, rfl, answer⟩
  | none => exact .inr ⟨before, answer, rest⟩

end Attempted

end BacktrackRegex
