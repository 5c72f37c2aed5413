import BacktrackRegex.Text

/-! Boundaries of a text. A text is a row of encoded characters, so what stands between two offsets
and is itself a text stands between boundaries. -/
namespace BacktrackRegex
namespace Text

theorem isBoundary_iff {t : Text} {p : Nat} :
    t.isBoundary p = true ↔ String.Pos.Raw.IsValid t.string ⟨p⟩ := by
  rw [isBoundary, String.Pos.Raw.isValid_eq_true_iff]

theorem le_size_of_isBoundary {t : Text} {p : Nat} (valid : t.isBoundary p = true) :
    p ≤ t.size := by
  have valid' := isBoundary_iff.mp valid
  exact valid'.le_utf8ByteSize

theorem charAt_next {t : Text} {p : Nat} {c : Char} (read : t.charAt p = .ok (some c)) :
    t.isBoundary p = true ∧ t.isBoundary (p + c.utf8Size) = true := by
  unfold charAt boundary at read
  split at read
  · next valid =>
    have found : (t.string.pos ⟨p⟩ valid).get? = some c := Except.ok.inj read
    rw [String.Pos.get?_eq_dif] at found
    split at found
    · cases found
    · next inside =>
      cases found
      refine ⟨isBoundary_iff.mpr valid, isBoundary_iff.mpr ?_⟩
      have := ((t.string.pos ⟨p⟩ valid).next inside).isValid
      rw [String.Pos.offset_next] at this
      exact this
  · cases read

theorem hasBytes_iff {t : Text} {piece : String} {p : Nat} :
    t.hasBytes piece p = true ↔
      ∀ i < piece.utf8ByteSize, byte? piece i = byte? t.string (p + i) := by
  rw [hasBytes, Nat.all_eq_finRange_all]
  simp [Fin.forall_iff]

theorem fits_of_hasBytes {t : Text} {piece : String} {p : Nat} (valid : t.isBoundary p = true)
    (same : t.hasBytes piece p = true) : p + piece.utf8ByteSize ≤ t.string.utf8ByteSize := by
  rcases Nat.eq_zero_or_pos piece.utf8ByteSize with none | some
  · rw [none]; exact le_size_of_isBoundary valid
  · have last := hasBytes_iff.mp same (piece.utf8ByteSize - 1) (by omega)
    unfold byte? at last
    rw [dif_pos (by omega)] at last
    split at last
    · omega
    · cases last

theorem extract_of_hasBytes {t : Text} {piece : String} {p : Nat} (valid : t.isBoundary p = true)
    (same : t.hasBytes piece p = true) :
    t.string.toByteArray.extract p (p + piece.utf8ByteSize) = piece.toByteArray := by
  have fits := fits_of_hasBytes valid same
  apply ByteArray.ext_getElem
  · simp only [ByteArray.size_extract, String.size_toByteArray]
    omega
  · intro i left right
    have small : i < piece.utf8ByteSize := right
    have same := hasBytes_iff.mp same i small
    unfold byte? at same
    rw [dif_pos small, dif_pos (by omega)] at same
    rw [ByteArray.getElem_extract]
    exact (Option.some.inj same).symm

theorem isBoundary_of_hasBytes {t : Text} {piece : String} {p : Nat} (valid : t.isBoundary p = true)
    (same : t.hasBytes piece p = true) : t.isBoundary (p + piece.utf8ByteSize) = true := by
  have decoded : (t.string.toByteArray.extract p (p + piece.utf8ByteSize)).IsValidUTF8 :=
    extract_of_hasBytes valid same ▸ piece.isValidUTF8
  obtain here | ⟨_, there⟩ := (String.Pos.Raw.isValidUTF8_extract_iff ⟨p⟩ ⟨p + piece.utf8ByteSize⟩
    (Nat.le_add_right _ _) (fits_of_hasBytes valid same)).mp decoded
  · have same : p = p + piece.utf8ByteSize := congrArg String.Pos.Raw.byteIdx here
    exact same ▸ valid
  · exact isBoundary_iff.mpr there

/-- An offset that matching may come to from `p`: `p` itself or, from a boundary, a later one. -/
def Reaches (t : Text) (p q : Nat) : Prop :=
  q = p ∨ (p ≤ q ∧ t.isBoundary p = true ∧ t.isBoundary q = true)

namespace Reaches

variable {t : Text} {p q r : Nat}

theorem refl (t : Text) (p : Nat) : t.Reaches p p := by
  exact .inl rfl

theorem trans (first : t.Reaches p q) (second : t.Reaches q r) : t.Reaches p r := by
  rcases first with rfl | ⟨le, begun, here⟩
  · exact second
  · rcases second with rfl | ⟨further, _, there⟩
    · exact .inr ⟨le, begun, here⟩
    · exact .inr ⟨Nat.le_trans le further, begun, there⟩

theorem le (reaches : t.Reaches p q) : p ≤ q := by
  rcases reaches with rfl | ⟨le, _⟩
  · exact Nat.le_refl _
  · exact le

theorem boundary (reaches : t.Reaches p q) (valid : t.isBoundary p = true) :
    t.isBoundary q = true := by
  rcases reaches with rfl | ⟨_, _, there⟩
  · exact valid
  · exact there

theorem le_size (reaches : t.Reaches p q) (moved : p ≠ q) : q ≤ t.size := by
  rcases reaches with rfl | ⟨_, _, there⟩
  · exact absurd rfl moved
  · exact le_size_of_isBoundary there

end Reaches

theorem reaches_of_charAt {t : Text} {p : Nat} {c : Char} (read : t.charAt p = .ok (some c)) :
    t.Reaches p (p + c.utf8Size) := by
  obtain ⟨here, there⟩ := charAt_next read
  exact .inr ⟨Nat.le_add_right _ _, here, there⟩

theorem left_lt_of_charAt {t : Text} {p q : Nat} {c : Char} (low : p ≤ q)
    (read : t.charAt q = .ok (some c)) : t.size - (q + c.utf8Size) < t.size - p := by
  have inside := lt_size_of_charAt read
  have wide := c.utf8Size_pos
  omega

theorem reaches_of_hasBytes {t : Text} {piece : String} {p : Nat} (valid : t.isBoundary p = true)
    (same : t.hasBytes piece p = true) : t.Reaches p (p + piece.utf8ByteSize) := by
  have there := isBoundary_of_hasBytes valid same
  exact .inr ⟨Nat.le_add_right _ _, valid, there⟩

theorem boundary_success {t : Text} {p : Nat} {q : t.string.Pos} (ok : t.boundary p = .ok q) :
    t.isBoundary p = true := by
  unfold boundary at ok
  split at ok
  · next valid => exact isBoundary_iff.mpr valid
  · cases ok

end Text
end BacktrackRegex
