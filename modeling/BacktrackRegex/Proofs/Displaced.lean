import BacktrackRegex.Displacement
import BacktrackRegex.Proofs.Readiness

/-! A text behind another one. Whatever is read of it, forward from an offset, is read of the two
together as many bytes further on. -/
namespace BacktrackRegex

namespace Text

/-- The second text is the first one behind `n` bytes of another. -/
def Displaced (n : Nat) (t t' : Text) : Prop :=
  ∃ x : String, x.utf8ByteSize = n ∧ t'.string = x ++ t.string

theorem Displaced.self (t : Text) : Displaced 0 t t := by
  refine ⟨"", rfl, ?_⟩
  simp

namespace Displaced

variable {n : Nat} {t t' : Text}

theorem size (displaced : Displaced n t t') : t'.size = n + t.size := by
  obtain ⟨x, rfl, joined⟩ := displaced
  simp only [Text.size, joined, String.utf8ByteSize_append]

theorem isValid_iff (displaced : Displaced n t t') {p : Nat} :
    String.Pos.Raw.IsValid t'.string ⟨n + p⟩ ↔ String.Pos.Raw.IsValid t.string ⟨p⟩ := by
  obtain ⟨x, rfl, joined⟩ := displaced
  have inner : (⟨x.utf8ByteSize + p⟩ : String.Pos.Raw) - x = ⟨p⟩ := by
    simp [String.Pos.Raw.ext_iff]
  rw [joined, String.Pos.Raw.isValid_append, inner]
  constructor
  · rintro (before | ⟨_, valid⟩)
    · have : x.utf8ByteSize + p ≤ x.utf8ByteSize := before.le_utf8ByteSize
      obtain rfl : p = 0 := by omega
      exact String.Pos.Raw.isValid_zero
    · exact valid
  · exact fun valid => .inr ⟨Nat.le_add_right _ _, valid⟩

theorem isBoundary (displaced : Displaced n t t') (p : Nat) :
    t'.isBoundary (n + p) = t.isBoundary p := by
  rw [Bool.eq_iff_iff, isBoundary_iff, isBoundary_iff, displaced.isValid_iff]

theorem getUTF8Byte (displaced : Displaced n t t') {p : Nat} (inside : p < t.size)
    (inside' : n + p < t'.size) :
    t'.string.getUTF8Byte ⟨n + p⟩ inside' = t.string.getUTF8Byte ⟨p⟩ inside := by
  obtain ⟨x, rfl, joined⟩ := displaced
  simp only [String.getUTF8Byte, joined, String.toByteArray_append]
  rw [ByteArray.getElem_append_right (by simp)]
  simp only [String.size_toByteArray, Nat.add_sub_cancel_left]
  rfl

theorem byte? (displaced : Displaced n t t') (p : Nat) :
    Text.byte? t'.string (n + p) = Text.byte? t.string p := by
  have inside : n + p < t'.string.utf8ByteSize ↔ p < t.string.utf8ByteSize := by
    have size : t'.string.utf8ByteSize = n + t.string.utf8ByteSize := displaced.size
    omega
  simp only [Text.byte?, inside]
  split
  · next here => rw [displaced.getUTF8Byte here (inside.mpr here)]
  · rfl

theorem byteAt (displaced : Displaced n t t') (p : Nat) : t'.byteAt (n + p) = t.byteAt p := by
  simp only [Text.byteAt, displaced.byte?]

theorem get?_pos (displaced : Displaced n t t') {p : Nat}
    (valid : String.Pos.Raw.IsValid t.string ⟨p⟩)
    (valid' : String.Pos.Raw.IsValid t'.string ⟨n + p⟩) :
    (t'.string.pos ⟨n + p⟩ valid').get? = (t.string.pos ⟨p⟩ valid).get? := by
  obtain ⟨x, rfl, joined⟩ := displaced
  have behind {before after : String} (splits : (t.string.pos ⟨p⟩ valid).Splits before after) :
      (t'.string.pos ⟨x.utf8ByteSize + p⟩ valid').Splits (x ++ before) after := by
    refine ⟨by rw [joined, splits.eq_append, String.append_assoc], ?_⟩
    have offset := splits.offset_eq_rawEndPos
    simp only [String.offset_pos, String.Pos.Raw.ext_iff, String.byteIdx_rawEndPos,
      String.utf8ByteSize_append] at offset ⊢
    omega
  have last_iff : t'.string.pos ⟨x.utf8ByteSize + p⟩ valid' = t'.string.endPos ↔
      t.string.pos ⟨p⟩ valid = t.string.endPos := by
    have splits := (t.string.pos ⟨p⟩ valid).splits
    rw [splits.eq_endPos_iff, (behind splits).eq_endPos_iff]
  rw [String.Pos.get?_eq_dif, String.Pos.get?_eq_dif]
  by_cases last : t.string.pos ⟨p⟩ valid = t.string.endPos
  · rw [dif_pos last, dif_pos (last_iff.mpr last)]
  · have last' := mt last_iff.mp last
    rw [dif_neg last, dif_neg last']
    have same := (behind (String.Pos.splits_next_right _ last)).eq_right
      (String.Pos.splits_next_right _ last')
    have chars := congrArg String.toList same
    simp only [String.toList_append, String.toList_singleton, List.cons_append, List.nil_append,
      List.cons.injEq] at chars
    rw [chars.1]

theorem charAt (displaced : Displaced n t t') (p : Nat) : t'.charAt (n + p) = t.charAt p := by
  simp only [Text.charAt, boundary, displaced.isValid_iff]
  split
  · next valid =>
    exact congrArg Except.ok (displaced.get?_pos valid (displaced.isValid_iff.mpr valid))
  · rfl

theorem extract_pos (displaced : Displaced n t t') {p q : Nat}
    (first : String.Pos.Raw.IsValid t.string ⟨p⟩) (last : String.Pos.Raw.IsValid t.string ⟨q⟩) :
    t'.string.extract (t'.string.pos ⟨n + p⟩ (displaced.isValid_iff.mpr first))
        (t'.string.pos ⟨n + q⟩ (displaced.isValid_iff.mpr last)) =
      t.string.extract (t.string.pos ⟨p⟩ first) (t.string.pos ⟨q⟩ last) := by
  obtain ⟨x, rfl, joined⟩ := displaced
  apply String.toByteArray_inj.mp
  simp only [String.toByteArray_extract, String.offset_pos, joined, String.toByteArray_append]
  exact ByteArray.extract_append_size_add

theorem slice (displaced : Displaced n t t') (p q : Nat) :
    t'.slice (n + p) (n + q) = t.slice p q := by
  simp only [Text.slice, boundary, displaced.isValid_iff]
  by_cases first : String.Pos.Raw.IsValid t.string ⟨p⟩ <;>
    by_cases last : String.Pos.Raw.IsValid t.string ⟨q⟩ <;>
      simp only [first, last, dif_pos, dif_neg, not_false_eq_true, bind, Except.bind]
  have order : t'.string.pos ⟨n + p⟩ (displaced.isValid_iff.mpr first) ≤
      t'.string.pos ⟨n + q⟩ (displaced.isValid_iff.mpr last) ↔
        t.string.pos ⟨p⟩ first ≤ t.string.pos ⟨q⟩ last := by
    simp only [String.Pos.le_iff, String.offset_pos, String.Pos.Raw.le_iff]
    omega
  simp only [order, displaced.extract_pos first last]

theorem hasBytes (displaced : Displaced n t t') (piece : String) (p : Nat) :
    t'.hasBytes piece (n + p) = t.hasBytes piece p := by
  simp only [Text.hasBytes, Nat.add_assoc, displaced.byte?]

theorem findByte (displaced : Displaced n t t') (b : UInt8) (p : Nat) :
    t'.findByte b (n + p) = (t.findByte b p).map (n + ·) := by
  have size := displaced.size
  fun_induction Text.findByte t b p with
  | case1 p inside here =>
    rw [Text.findByte, dif_pos (by omega), displaced.getUTF8Byte inside (by omega), if_pos here,
      Option.map_some]
  | case2 p inside other ih =>
    rw [Text.findByte, dif_pos (by omega), displaced.getUTF8Byte inside (by omega), if_neg other,
      Nat.add_assoc, ih]
  | case3 p outside =>
    rw [Text.findByte, dif_neg (by omega), Option.map_none]

theorem eq_self (displaced : Displaced 0 t t') : t' = t := by
  obtain ⟨x, empty, joined⟩ := displaced
  obtain rfl := String.utf8ByteSize_eq_zero_iff.mp empty
  cases t
  cases t'
  simpa using joined

end Displaced

end Text

variable {n : Nat} {t t' : Text}

theorem foldedEnd_shift (displaced : t.Displaced n t') (cs : List Char) (p : Nat) :
    foldedEnd t' cs (n + p) = (foldedEnd t cs p).map (·.map (n + ·)) := by
  induction cs generalizing p with
  | nil => rfl
  | cons c cs ih =>
    simp only [foldedEnd, displaced.charAt, bind, Except.bind]
    cases t.charAt p with
    | error e => rfl
    | ok found =>
      cases found with
      | none => rfl
      | some d =>
        dsimp only
        split
        · rw [Nat.add_assoc, ih]
        · rfl

theorem literalEnd_shift (displaced : t.Displaced n t') (piece : String) (ignoreCase : Bool)
    (p : Nat) :
    literalEnd piece ignoreCase t' (n + p) =
      (literalEnd piece ignoreCase t p).map (·.map (n + ·)) := by
  simp only [literalEnd, Text.boundary, displaced.isValid_iff]
  by_cases valid : String.Pos.Raw.IsValid t.string ⟨p⟩
  · simp only [valid, dif_pos, bind, Except.bind, foldedEnd_shift displaced, displaced.hasBytes]
    split
    · rfl
    · split
      · rw [Nat.add_assoc]; rfl
      · rfl
  · simp only [valid, dif_neg, not_false_eq_true]
    rfl

theorem backReferenceEnd_shift (displaced : t.Displaced n t') (captured : Option Span)
    (ignoreCase : Bool) (p : Nat) :
    backReferenceEnd (captured.map (·.shift n)) ignoreCase t' (n + p) =
      (backReferenceEnd captured ignoreCase t p).map (·.map (n + ·)) := by
  cases captured with
  | none => rfl
  | some s =>
    simp only [backReferenceEnd, Option.map_some, Span.shift, displaced.slice, bind, Except.bind]
    cases t.slice s.start s.stop with
    | error e => rfl
    | ok piece => exact literalEnd_shift displaced piece ignoreCase p

theorem CharClass.endAt_shift (displaced : t.Displaced n t') (k : CharClass) (p : Nat) :
    k.endAt t' (n + p) = (k.endAt t p).map (·.map (n + ·)) := by
  simp only [endAt, displaced.charAt, bind, Except.bind]
  cases t.charAt p with
  | error e => rfl
  | ok found =>
    cases found with
    | none => rfl
    | some c =>
      dsimp only
      split
      · rw [Nat.add_assoc]; rfl
      · rfl

theorem Anchor.holdsAt_shift (displaced : t.Displaced n t') {a : Anchor}
    (blind : n = 0 ∨ a.looksBack = false) {p : Nat} (valid : t.isBoundary p = true) (origin : Nat) :
    a.holdsAt t' (n + p) (n + origin) = a.holdsAt t p origin := by
  obtain rfl | blind := blind
  · rw [displaced.eq_self, Nat.zero_add, Nat.zero_add]
  have size := displaced.size
  have within := Text.le_size_of_isBoundary valid
  have ended : n + p = t'.size ↔ p = t.size := by omega
  cases a with
  | startText | startLine | wordBoundary | notWordBoundary => cases blind
  | endText => simp only [holdsAt, Bool.beq_eq_decide_eq, ended]
  | endTextOptionalNewline =>
    have bound : t'.size < Word.modulus := t'.size_lt
    have words (inside : p < t.size) : Word.next (n + p) = n + Word.next p := by
      unfold Word.modulus at bound
      rw [Word.next_eq_add_one (by unfold Word.max; omega),
        Word.next_eq_add_one (by unfold Word.max; omega), Nat.add_assoc]
    simp only [holdsAt, ended, displaced.byteAt]
    split
    · rfl
    · rw [words (by omega)]
      simp only [size, Nat.add_left_cancel_iff]
  | endLine => simp only [holdsAt, ended, displaced.byteAt]
  | startPosition => simp only [holdsAt, Bool.beq_eq_decide_eq, Nat.add_left_cancel_iff]

end BacktrackRegex
