import BacktrackRegex.Proofs.Boundaries
import BacktrackRegex.Proofs.Registers

/-! Where leaves end: where they begin or, between boundaries, later. -/
namespace BacktrackRegex

theorem foldedEnd_reaches {t : Text} {cs : List Char} {p q : Nat}
    (ok : foldedEnd t cs p = .ok (some q)) : t.Reaches p q := by
  induction cs generalizing p with
  | nil => cases ok; exact .refl _ _
  | cons c cs ih =>
    obtain ⟨found, read, rest⟩ := bind_success ok
    cases found with
    | none => cases rest
    | some d =>
      dsimp only at rest
      split at rest
      · exact (Text.reaches_of_charAt read).trans (ih rest)
      · cases rest

theorem literalEnd_reaches {t : Text} {piece : String} {ignoreCase : Bool} {p q : Nat}
    (ok : literalEnd piece ignoreCase t p = .ok (some q)) : t.Reaches p q := by
  obtain ⟨_, valid, rest⟩ := bind_success ok
  split at rest
  · exact foldedEnd_reaches rest
  · split at rest
    · next same =>
      cases rest
      exact Text.reaches_of_hasBytes (Text.boundary_success valid) same
    · cases rest

theorem backReferenceEnd_reaches {t : Text} {captured : Option Span} {ignoreCase : Bool}
    {p q : Nat} (ok : backReferenceEnd captured ignoreCase t p = .ok (some q)) :
    t.Reaches p q := by
  cases captured with
  | none => cases ok
  | some s =>
    obtain ⟨piece, _, rest⟩ := bind_success ok
    exact literalEnd_reaches rest

theorem CharClass.endAt_reaches {t : Text} {k : CharClass} {p q : Nat}
    (ok : k.endAt t p = .ok (some q)) : t.Reaches p q := by
  obtain ⟨found, read, rest⟩ := bind_success ok
  cases found with
  | none => cases rest
  | some c =>
    dsimp only at rest
    split at rest
    · cases rest; exact Text.reaches_of_charAt read
    · cases rest

theorem foldedEnd_lt {t : Text} {cs : List Char} {p q : Nat} (nonempty : cs ≠ [])
    (ok : foldedEnd t cs p = .ok (some q)) : p < q := by
  cases cs with
  | nil => exact absurd rfl nonempty
  | cons c cs =>
    obtain ⟨found, read, rest⟩ := bind_success ok
    cases found with
    | none => cases rest
    | some d =>
      dsimp only at rest
      split at rest
      · exact Nat.lt_of_lt_of_le (Nat.lt_add_of_pos_right d.utf8Size_pos)
          (foldedEnd_reaches rest).le
      · cases rest

theorem literalEnd_lt {t : Text} {piece : String} {ignoreCase : Bool} {p q : Nat}
    (nonempty : piece ≠ "") (ok : literalEnd piece ignoreCase t p = .ok (some q)) : p < q := by
  obtain ⟨_, _, rest⟩ := bind_success ok
  split at rest
  · exact foldedEnd_lt (by simpa using nonempty) rest
  · split at rest
    · cases rest
      have : piece.utf8ByteSize ≠ 0 := by simpa using nonempty
      omega
    · cases rest

theorem CharClass.endAt_lt {t : Text} {k : CharClass} {p q : Nat}
    (ok : k.endAt t p = .ok (some q)) : p < q := by
  obtain ⟨found, read, rest⟩ := bind_success ok
  cases found with
  | none => cases rest
  | some c =>
    dsimp only at rest
    split at rest
    · cases rest; exact Nat.lt_add_of_pos_right c.utf8Size_pos
    · cases rest

theorem Graph.leafEnd_reaches {g : Graph} {t : Text} {s : MatchState} {id p q : Nat}
    (ok : g.leafEnd t s id p = .ok (some q)) : t.Reaches p q := by
  obtain ⟨n, _, rest⟩ := bind_success ok
  cases n with
  | literal text ignoreCase _ => exact literalEnd_reaches rest
  | charClass members _ => exact CharClass.endAt_reaches rest
  | backReference k ignoreCase _ =>
    obtain ⟨captured, _, rest⟩ := bind_success rest
    exact backReferenceEnd_reaches rest
  | anchor condition _ =>
    obtain ⟨holds, _, rest⟩ := bind_success rest
    split at rest
    · cases rest; exact .refl _ _
    · cases rest
  | _ => cases rest

namespace Attempt

theorem reaches_of_mem_leafEnds {t : Text} {leaf : LeafEnd}
    (forward : ∀ {p q}, leaf p = .ok (some q) → t.Reaches p q) {n p q : Nat} {ends : List Nat}
    (ok : leafEnds leaf n p = .ok ends) (member : q ∈ ends) : t.Reaches p q := by
  induction n generalizing p ends with
  | zero => cases ok; cases List.mem_singleton.mp member; exact .refl _ _
  | succ n ih =>
    obtain ⟨found, reached, rest⟩ := bind_success ok
    cases found with
    | none => cases rest; cases List.mem_singleton.mp member; exact .refl _ _
    | some stop =>
      dsimp only at rest
      split at rest
      · obtain ⟨more, further, same⟩ := bind_success rest
        cases pure_success same
        rcases List.mem_cons.mp member with rfl | later
        · exact .refl _ _
        · exact (forward reached).trans (ih further later)
      · cases rest; cases List.mem_singleton.mp member; exact .refl _ _

theorem leafEnds_length {leaf : LeafEnd} {n p : Nat} {ends : List Nat}
    (ok : leafEnds leaf n p = .ok ends) : ends.length ≤ n + 1 := by
  induction n generalizing p ends with
  | zero => cases ok; simp
  | succ n ih =>
    obtain ⟨found, _, rest⟩ := bind_success ok
    cases found with
    | none => cases rest; simp
    | some stop =>
      dsimp only at rest
      split at rest
      · obtain ⟨more, further, same⟩ := bind_success rest
        cases pure_success same
        have := ih further
        simp only [List.length_cons]
        omega
      · cases rest; simp

end Attempt

end BacktrackRegex
