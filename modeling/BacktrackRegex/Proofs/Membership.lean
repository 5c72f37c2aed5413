import BacktrackRegex.CharClass

/-! What a class admits that was built by a sequence of calls. Each call adds members or sets a
modifier, and the members are said here without the table and the lists: a character is one if some
call accepts it. -/
namespace BacktrackRegex.CharClass

inductive Call where
  | addChar (c : Char)
  | addRange (lo hi : Char)
  | addShorthand (s : Shorthand) (complement : Bool)
  | negate
  | ignoreCase
  deriving DecidableEq, Repr

def Call.apply (k : CharClass) : Call → CharClass
  | addChar c => k.addChar c
  | addRange lo hi => k.addRange lo hi
  | addShorthand s complement => k.addShorthand s complement
  | negate => k.negate
  | ignoreCase => k.ignoreCase

def Call.accepts (x : Char) : Call → Bool
  | addChar c => c = x
  | addRange lo hi => lo ≤ x && x ≤ hi
  | addShorthand s complement => s.contains x != complement
  | negate | ignoreCase => false

inductive Base where
  | empty
  | any (dotAll : Bool)
  | ofShorthand (s : Shorthand)
  deriving DecidableEq, Repr

def Base.toClass : Base → CharClass
  | empty => .empty
  | any dotAll => .any dotAll
  | ofShorthand s => .ofShorthand s

def Base.calls : Base → List Call
  | empty => []
  | any dotAll => (if dotAll then [] else [.addChar '\n']) ++ [.negate]
  | ofShorthand s => [.addShorthand s false]

def build (base : Base) (calls : List Call) : CharClass := calls.foldl Call.apply base.toClass

def member (calls : List Call) (x : Char) : Bool := calls.any (·.accepts x)

def memberForm (calls : List Call) (c : Char) : Bool :=
  member calls c ||
  (calls.contains .ignoreCase &&
    ((Unicode.lowercase c).any (member calls) || (Unicode.uppercase c).any (member calls)))

def describes (calls : List Call) (c : Char) : Bool :=
  memberForm calls c != decide (calls.count .negate % 2 = 1)

variable {k : CharClass} {base : Base} {calls calls' : List Call} {call : Call}

theorem char_le_iff {c d : Char} : c ≤ d ↔ c.toNat ≤ d.toNat := by
  rw [Char.le_def, UInt32.le_iff_toNat_le]
  rfl

theorem addRange_contains (k : CharClass) (lo hi x : Char) :
    (k.addRange lo hi).contains x = (k.contains x || (lo ≤ x && x ≤ hi)) := by
  by_cases inverted : hi < lo
  · have outside : ¬(lo ≤ x ∧ x ≤ hi) := by
      rintro ⟨above, below⟩
      exact Char.not_le.mpr inverted (Char.le_trans above below)
    simp [addRange, inverted, outside]
  have border : (Char.ofNat latinSize).toNat = latinSize := by decide
  by_cases small : x.toNat < latinSize
  · -- Only the table is asked, and the list does not count.
    by_cases within : hi.toNat < latinSize <;>
      simp [addRange, inverted, within, contains, small, char_le_iff]
  · by_cases within : hi.toNat < latinSize
    · have above : ¬x ≤ hi := by rw [char_le_iff]; omega
      simp [addRange, inverted, within, contains, small, above]
    · have cut : (if lo.toNat < latinSize then Char.ofNat latinSize else lo) ≤ x ↔ lo ≤ x := by
        split
        · simp only [char_le_iff, border]; omega
        · rfl
      simp [addRange, inverted, within, contains, small, cut, Bool.or_assoc, Bool.or_comm]

theorem addShorthand_contains (k : CharClass) (s : Shorthand) (complement : Bool) (x : Char) :
    (k.addShorthand s complement).contains x =
      (k.contains x || s.contains x != complement) := by
  by_cases small : x.toNat < latinSize <;>
    simp [addShorthand, contains, small, Bool.or_assoc]

theorem apply_contains (k : CharClass) (call : Call) (x : Char) :
    (call.apply k).contains x = (k.contains x || call.accepts x) := by
  cases call with
  | addChar c =>
    have same : (c ≤ x ∧ x ≤ c) ↔ c = x := Std.le_antisymm_iff
    simp [Call.apply, Call.accepts, addChar, addRange_contains, ← Bool.decide_and, same]
  | addRange lo hi => exact addRange_contains k lo hi x
  | addShorthand s complement => exact addShorthand_contains k s complement x
  | negate | ignoreCase => simp [Call.apply, Call.accepts, contains, negate, ignoreCase]

theorem addRange_modifiers (k : CharClass) (lo hi : Char) :
    (k.addRange lo hi).negated = k.negated ∧ (k.addRange lo hi).ignoresCase = k.ignoresCase := by
  by_cases inverted : hi < lo
  · simp [addRange, inverted]
  by_cases within : hi.toNat < latinSize <;> simp [addRange, inverted, within]

theorem apply_modifiers (k : CharClass) (call : Call) :
    (call.apply k).negated = (k.negated != decide (call = .negate)) ∧
      (call.apply k).ignoresCase = (k.ignoresCase || .ignoreCase == call) := by
  cases call with
  | addChar c => simp [Call.apply, addChar, addRange_modifiers]
  | addRange lo hi => simp [Call.apply, addRange_modifiers]
  | addShorthand s complement => simp [Call.apply, addShorthand]
  | negate | ignoreCase => simp [Call.apply, negate, ignoreCase]

theorem foldl_contains (calls : List Call) (k : CharClass) (x : Char) :
    (calls.foldl Call.apply k).contains x = (k.contains x || member calls x) := by
  induction calls generalizing k with
  | nil => simp [member]
  | cons call calls ih =>
    rw [List.foldl_cons, ih, apply_contains, Bool.or_assoc, member, member, List.any_cons]

theorem foldl_negated (calls : List Call) (k : CharClass) :
    (calls.foldl Call.apply k).negated =
      (k.negated != decide (calls.count .negate % 2 = 1)) := by
  induction calls generalizing k with
  | nil => simp
  | cons call calls ih =>
    rw [List.foldl_cons, ih, (apply_modifiers k call).1]
    by_cases flips : call = .negate
    · subst flips
      rcases Nat.mod_two_eq_zero_or_one (calls.count .negate) with even | odd
      · simp [Nat.add_mod, even]
      · simp [Nat.add_mod, odd]
    · simp [flips]

theorem foldl_ignoresCase (calls : List Call) (k : CharClass) :
    (calls.foldl Call.apply k).ignoresCase = (k.ignoresCase || calls.contains .ignoreCase) := by
  induction calls generalizing k with
  | nil => simp
  | cons call calls ih =>
    rw [List.foldl_cons, ih, (apply_modifiers k call).2, Bool.or_assoc, List.contains_cons]

theorem empty_contains (x : Char) : empty.contains x = false := by
  by_cases small : x.toNat < latinSize <;>
    simp [contains, empty, small, BitSet.contains_empty]

theorem build_eq (base : Base) (calls : List Call) :
    build base calls = (base.calls ++ calls).foldl Call.apply empty := by
  have start : base.toClass = base.calls.foldl Call.apply empty := by
    cases base with
    | empty | ofShorthand => rfl
    | any dotAll => cases dotAll <;> rfl
  rw [build, start, List.foldl_append]

theorem build_contains (base : Base) (calls : List Call) (x : Char) :
    (build base calls).contains x = member (base.calls ++ calls) x := by
  rw [build_eq, foldl_contains, empty_contains, Bool.false_or]

theorem admits_build (base : Base) (calls : List Call) (c : Char) :
    (build base calls).admits c = describes (base.calls ++ calls) c := by
  have members : (build base calls).contains = member (base.calls ++ calls) :=
    funext (build_contains base calls)
  have form : (build base calls).containsForm c = memberForm (base.calls ++ calls) c := by
    rw [containsForm, memberForm, members, build_eq, foldl_ignoresCase, empty, Bool.false_or]
  rw [admits, describes, form, build_eq, foldl_negated, empty, Bool.false_bne]

theorem describes_perm (perm : calls.Perm calls') (c : Char) :
    describes calls c = describes calls' c := by
  have members : member calls = member calls' := funext fun _ => perm.any_eq
  have called : calls.contains .ignoreCase = calls'.contains .ignoreCase :=
    perm.contains_eq
  simp only [describes, memberForm, members, called, perm.count_eq]

/-- A class is the set that its calls describe, on both sides of the table's end. The order of the
calls does not count, and a range that is out of order adds nothing. -/
theorem build_describes (base : Base) (calls : List Call) :
    (∀ c, (build base calls).admits c = describes (base.calls ++ calls) c) ∧
    (∀ x, (build base calls).contains x = member (base.calls ++ calls) x) ∧
    (∀ calls', calls.Perm calls' →
      ∀ c, (build base calls').admits c = (build base calls).admits c) ∧
    ∀ before after lo hi, calls = before ++ .addRange lo hi :: after → hi < lo →
      build base calls = build base (before ++ after) := by
  refine ⟨admits_build base calls, build_contains base calls, fun calls' perm c => ?_, ?_⟩
  · rw [admits_build, admits_build]
    exact describes_perm (perm.symm.append_left _) c
  · rintro before after lo hi rfl inverted
    simp [build, Call.apply, addRange, inverted]

theorem build_describes_border :
    let calls := [Call.negate, .addRange 'z' 'a', .addRange 'ÿ' 'Ā', .ignoreCase]
    (build .empty calls).admits 'Ÿ' = false ∧ (build .empty calls).admits 'b' = true ∧
      build .empty calls = build .empty [.negate, .addRange 'ÿ' 'Ā', .ignoreCase] ∧
      (build .empty [.ignoreCase, .addRange 'ÿ' 'Ā', .addRange 'z' 'a', .negate]).admits 'Ÿ' =
        false := by
  intro calls
  obtain ⟨described, -, ordered, dropped⟩ := build_describes .empty calls
  refine ⟨?_, ?_, dropped [.negate] _ 'z' 'a' rfl (by decide), ?_⟩
  · rw [described]; decide +kernel
  · rw [described]; decide +kernel
  · rw [ordered _ (by decide), described]; decide +kernel

end BacktrackRegex.CharClass
