import BacktrackRegex.Proofs.CaseForms
import BacktrackRegex.Proofs.Displaced

/-! Occurrences of a literal, said of characters. With case the bytes are compared, without it the
characters one by one. Either way a literal occurs where the text goes on with its characters, and
the occurrence ends behind the characters of the text that stand for them. -/
namespace BacktrackRegex

namespace Text

variable {t : Text} {p q : Nat}

theorem charsFrom_nil (read : t.charAt p = .ok none) : t.charsFrom p = [] := by
  rw [charsFrom]
  split
  · next read' => cases read.symm.trans read'
  · rfl

theorem charAt_pos (pos : t.string.Pos) : t.charAt pos.offset.byteIdx = .ok pos.get? := by
  unfold charAt boundary
  rw [dif_pos pos.isValid]
  rfl

theorem charsFrom_of_splits {pos : t.string.Pos} {before after : String}
    (splits : pos.Splits before after) : t.charsFrom pos.offset.byteIdx = after.toList := by
  -- From the end of the text back to `pos`; where the text is split moves along.
  induction pos using String.Pos.next_induction generalizing before after with
  | next pos inside ih =>
    obtain ⟨after, rfl⟩ := splits.exists_eq_singleton_append inside
    have read : t.charAt pos.offset.byteIdx = .ok (some (pos.get inside)) := by
      rw [charAt_pos, String.Pos.get?_eq_dif, dif_neg inside]
    have later := ih splits.next
    rw [String.Pos.offset_next] at later
    rw [charsFrom_cons read, String.toList_append, String.toList_singleton]
    exact congrArg _ later
  | endPos =>
    obtain rfl := splits.eq_endPos_iff.mp rfl
    refine charsFrom_nil ?_
    rw [charAt_pos, String.Pos.get?_eq_dif, dif_pos rfl]

theorem exists_rest (valid : t.isBoundary p = true) :
    ∃ rest : Text, Displaced p rest t ∧ t.charsFrom p = rest.string.toList := by
  let pos := t.string.pos ⟨p⟩ (isBoundary_iff.mp valid)
  obtain ⟨before, after, splits⟩ : ∃ before after, pos.Splits before after := ⟨_, _, pos.splits⟩
  have joined := splits.eq_append
  have fits : after.utf8ByteSize < Word.modulus := by
    refine Nat.lt_of_le_of_lt ?_ t.size_lt
    rw [joined, String.utf8ByteSize_append]
    exact Nat.le_add_left _ _
  have size : before.utf8ByteSize = p :=
    (congrArg String.Pos.Raw.byteIdx splits.offset_eq_rawEndPos).symm
  exact ⟨⟨after, fits⟩, ⟨before, size, joined⟩, charsFrom_of_splits splits⟩

theorem hasBytes_zero_iff {piece : String} :
    t.hasBytes piece 0 = true ↔ piece.toList <+: t.string.toList := by
  have valid : t.isBoundary 0 = true := isBoundary_iff.mpr String.Pos.Raw.isValid_zero
  constructor
  · intro same
    -- The text's bytes are those of `piece` and some more, and both sides are encoded characters.
    have bytes := extract_of_hasBytes valid same
    have fits : 0 + piece.utf8ByteSize ≤ t.string.toByteArray.size := fits_of_hasBytes valid same
    apply List.isPrefix_of_utf8Encode_append_eq_utf8Encode
      (t.string.toByteArray.extract (0 + piece.utf8ByteSize) t.string.toByteArray.size)
    rw [String.utf8Encode_toList, String.utf8Encode_toList, ← bytes,
      ← ByteArray.extract_eq_extract_append_extract _ (Nat.le_add_right _ _) fits,
      ByteArray.extract_zero_size]
  · rintro ⟨rest, chars⟩
    have parts : t.string = piece ++ .ofList rest :=
      String.toList_injective (by simpa using chars.symm)
    refine hasBytes_iff.mpr fun i inside => ?_
    have inside' : i < (piece ++ String.ofList rest).utf8ByteSize := by
      rw [String.utf8ByteSize_append]
      omega
    unfold byte?
    simp only [Nat.zero_add, parts]
    rw [dif_pos inside, dif_pos inside']
    simp only [String.getUTF8Byte, String.toByteArray_append]
    rw [ByteArray.getElem_append_left]

/-- UTF-8 is a prefix code, so bytes begin the rest of a text just if characters do. -/
theorem hasBytes_iff_prefix {piece : String} (valid : t.isBoundary p = true) :
    t.hasBytes piece p = true ↔ piece.toList <+: t.charsFrom p := by
  obtain ⟨rest, displaced, chars⟩ := exists_rest valid
  have same := displaced.hasBytes piece 0
  rw [Nat.add_zero] at same
  rw [same, chars, hasBytes_zero_iff]

theorem charsFrom_zero (t : Text) : t.charsFrom 0 = t.string.toList := by
  obtain ⟨rest, displaced, chars⟩ := exists_rest (t := t) (p := 0) (by simp [isBoundary_iff])
  rw [chars, displaced.eq_self]

theorem slice_chars {s : Span} (bounds : t.Piece s) : ∃ piece, t.slice s.start s.stop = .ok piece ∧
    t.charsFrom s.start = piece.toList ++ t.charsFrom s.stop := by
  have first := isBoundary_iff.mp bounds.start
  have last := isBoundary_iff.mp bounds.stop
  have order : t.string.pos ⟨s.start⟩ first ≤ t.string.pos ⟨s.stop⟩ last := bounds.ordered
  obtain ⟨before, _, splits⟩ : ∃ before rest, (t.string.pos ⟨s.start⟩ first).Splits before rest :=
    ⟨_, _, String.Pos.splits _⟩
  obtain ⟨_, after, splits'⟩ : ∃ before rest, (t.string.pos ⟨s.stop⟩ last).Splits before rest :=
    ⟨_, _, String.Pos.splits _⟩
  obtain ⟨piece, rfl, rfl⟩ := (splits.le_iff_exists_eq_append splits').mp order
  refine ⟨piece, ?_, ?_⟩
  · simp only [slice, boundary, dif_pos first, dif_pos last, ok_bind, if_pos order]
    refine congrArg Except.ok (String.toByteArray_inj.mp ?_)
    rw [String.toByteArray_extract, splits.offset_eq_rawEndPos, splits'.offset_eq_rawEndPos,
      splits.eq_append, String.toByteArray_append, String.toByteArray_append]
    have size : (before ++ piece).rawEndPos.byteIdx =
        before.toByteArray.size + piece.toByteArray.size := by simp
    rw [size]
    exact (ByteArray.extract_append_size_add (a := before.toByteArray) (i := 0)).trans
      (ByteArray.extract_append_eq_left rfl)
  · have chars : t.charsFrom s.start = _ := charsFrom_of_splits splits
    have chars' : t.charsFrom s.stop = _ := charsFrom_of_splits splits'
    rw [chars, chars', String.toList_append]

end Text

variable {t : Text} {p q : Nat}

def byteSize (cs : List Char) : Nat := (String.ofList cs).utf8ByteSize

theorem byteSize_cons (c : Char) (cs : List Char) :
    byteSize (c :: cs) = c.utf8Size + byteSize cs := by
  rw [byteSize, byteSize, String.ofList_cons, String.utf8ByteSize_append]
  simp

theorem byteSize_append (cs ds : List Char) : byteSize (cs ++ ds) = byteSize cs + byteSize ds := by
  rw [byteSize, String.ofList_append, String.utf8ByteSize_append]
  rfl

theorem byteSize_toList (s : String) : byteSize s.toList = s.utf8ByteSize := by
  rw [byteSize, String.ofList_toList]

theorem length_le_of_byteSize_take {cs : List Char} {n : Nat}
    (all : byteSize (cs.take n) = byteSize cs) : cs.length ≤ n := by
  have parts := byteSize_append (cs.take n) (cs.drop n)
  rw [List.take_append_drop, all] at parts
  have nothing : byteSize (cs.drop n) = 0 := by omega
  simpa [byteSize] using nothing

/-- The characters of a row agree in their folds with those that another one begins with. -/
def AlikeWith (cs ds : List Char) : Prop :=
  ∃ _ : cs.length ≤ ds.length, ∀ k, (_ : k < cs.length) → fold cs[k] = fold ds[k]

theorem alikeWith_iff {cs ds : List Char} : AlikeWith cs ds ↔ cs.map fold <+: ds.map fold := by
  simp [AlikeWith, List.prefix_iff_getElem]

theorem foldedEnd_iff {cs : List Char} (valid : t.isBoundary p = true) :
    foldedEnd t cs p = .ok (some q) ↔ AlikeWith cs (t.charsFrom p) ∧
      q = p + byteSize ((t.charsFrom p).take cs.length) := by
  rw [alikeWith_iff]
  induction cs generalizing p with
  | nil => simp [foldedEnd, byteSize, pure, Except.pure, eq_comm]
  | cons c cs ih =>
    obtain ⟨found, read⟩ := Text.charAt_ok valid
    rw [foldedEnd, read, ok_bind]
    cases found with
    | none => simp [Text.charsFrom_nil read, pure, Except.pure]
    | some d =>
      -- The end moves by the size of the text's own character, whatever that of `c` is.
      rw [Text.charsFrom_cons read]
      simp only [List.map_cons, List.cons_prefix_cons, List.length_cons, List.take_succ_cons,
        byteSize_cons, ← eqIgnoringCase_iff, ← Nat.add_assoc]
      split
      · next alike => rw [ih (Text.charAt_next read).2]; simp [alike]
      · next apart => simp [apart, pure, Except.pure]

section Literals

variable {piece : String}

theorem literalEnd_exact_iff (valid : t.isBoundary p = true) :
    literalEnd piece false t p = .ok (some q) ↔
      piece.toList <+: t.charsFrom p ∧ q = p + piece.utf8ByteSize := by
  obtain ⟨_, taken, _⟩ := Text.boundary_ok valid
  rw [literalEnd, taken, ok_bind, ← Text.hasBytes_iff_prefix valid]
  by_cases same : t.hasBytes piece p = true <;> simp [same, pure, Except.pure, eq_comm]

theorem literalEnd_folded_iff (valid : t.isBoundary p = true) :
    literalEnd piece true t p = .ok (some q) ↔ AlikeWith piece.toList (t.charsFrom p) ∧
      q = p + byteSize ((t.charsFrom p).take piece.toList.length) := by
  obtain ⟨_, taken, _⟩ := Text.boundary_ok valid
  rw [literalEnd, taken, ok_bind, if_pos rfl, foldedEnd_iff valid]

end Literals

/-- How the ends of `piece` at `p`, with and without regard to case, are found from characters. -/
structure Characterwise (piece : String) (t : Text) (p : Nat)
    (endAt : Bool → Except Fault (Option Nat)) : Prop where
  answered : ∀ ignoreCase, ∃ found, endAt ignoreCase = .ok found
  exact : ∀ q, endAt false = .ok (some q) ↔
    piece.toList <+: t.charsFrom p ∧ q = p + piece.utf8ByteSize
  folded : ∀ q, endAt true = .ok (some q) ↔ AlikeWith piece.toList (t.charsFrom p) ∧
    q = p + byteSize ((t.charsFrom p).take piece.toList.length)
  boundary : ∀ ignoreCase q, endAt ignoreCase = .ok (some q) → t.isBoundary q = true ∧ q ≤ t.size
  widened : ∀ q, endAt false = .ok (some q) → endAt true = .ok (some q)

theorem literalEnd_characterwise (piece : String) (valid : t.isBoundary p = true) :
    Characterwise piece t p (literalEnd piece · t p) := by
  constructor
  case answered =>
    intro _
    exact literalEnd_ok valid
  case exact =>
    intro _
    exact literalEnd_exact_iff valid
  case folded =>
    intro _
    exact literalEnd_folded_iff valid
  case boundary =>
    intro _ q ends
    have there := (literalEnd_reaches ends).boundary valid
    exact ⟨there, Text.le_size_of_isBoundary there⟩
  case widened =>
    intro q ends
    obtain ⟨begins, rfl⟩ := (literalEnd_exact_iff valid).mp ends
    refine (literalEnd_folded_iff valid).mpr ⟨alikeWith_iff.mpr (begins.map fold), ?_⟩
    rw [← List.prefix_iff_eq_take.mp begins, byteSize_toList]

theorem literalEnd_whole_iff {a b : Text} : literalEnd a.string true b 0 = .ok (some b.size) ↔
    a.string.toList.map fold = b.string.toList.map fold := by
  have valid : b.isBoundary 0 = true := by simp [Text.isBoundary_iff]
  rw [literalEnd_folded_iff valid, alikeWith_iff, Text.charsFrom_zero, Nat.zero_add, Text.size,
    ← byteSize_toList]
  constructor
  · rintro ⟨begins, all⟩
    have short := length_le_of_byteSize_take all.symm
    exact begins.eq_of_length_le (by simpa using short)
  · intro same
    have length : a.string.toList.length = b.string.toList.length := by
      simpa using congrArg List.length same
    exact ⟨same ▸ List.prefix_refl _, by rw [length, List.take_length]⟩

/-- Literals are matched by characters in either mode, and so are back references, whose literal is
the captured piece. Texts that match each other as a whole, but for case, form classes. -/
theorem literals_characterwise :
    (∀ (t : Text) (p : Nat), t.isBoundary p = true →
      (∃ before : String, before.utf8ByteSize = p ∧
        t.string = before ++ .ofList (t.charsFrom p)) ∧
      (∀ piece, Characterwise piece t p (literalEnd piece · t p)) ∧
      ∀ s, t.Piece s → ∃ piece, t.slice s.start s.stop = .ok piece ∧
        t.charsFrom s.start = piece.toList ++ t.charsFrom s.stop ∧
        Characterwise piece t p (backReferenceEnd (some s) · t p)) ∧
    Equivalence fun a b : Text => literalEnd a.string true b 0 = .ok (some b.size) := by
  refine ⟨fun t p valid => ⟨?_, fun piece => literalEnd_characterwise piece valid, ?_⟩, ?_⟩
  · obtain ⟨rest, ⟨before, size, joined⟩, chars⟩ := Text.exists_rest valid
    exact ⟨before, size, by rw [joined, chars, String.ofList_toList]⟩
  · intro s bounds
    obtain ⟨piece, cut, chars⟩ := Text.slice_chars bounds
    refine ⟨piece, cut, chars, ?_⟩
    simp only [backReferenceEnd, cut, ok_bind]
    exact literalEnd_characterwise piece valid
  · simp only [literalEnd_whole_iff]
    exact ⟨fun _ => rfl, Eq.symm, Eq.trans⟩

theorem literals_characterwise_kelvin : ∃ (t : Text) (piece : String), t.string = "\u212ak" ∧
    t.isBoundary 3 = true ∧ t.Piece ⟨0, 3⟩ ∧ t.slice 0 3 = .ok piece ∧
    backReferenceEnd (some ⟨0, 3⟩) true t 3 = .ok (some 4) ∧
    AlikeWith piece.toList (t.charsFrom 3) := by
  let t : Text := ⟨"\u212ak", by decide⟩
  have valid : t.isBoundary 3 = true := by decide
  have bounds : t.Piece ⟨0, 3⟩ := ⟨by decide, by decide, by decide⟩
  obtain ⟨_, _, again⟩ := literals_characterwise.1 t 3 valid
  obtain ⟨piece, cut, _, law⟩ := again ⟨0, 3⟩ bounds
  have ends : backReferenceEnd (some ⟨0, 3⟩) true t 3 = .ok (some 4) := by decide +kernel
  exact ⟨t, piece, rfl, valid, bounds, cut, ends, ((law.folded 4).mp ends).1⟩

end BacktrackRegex
