import Mathlib.Control.Monad.Basic
import BacktrackRegex.Proofs.Meaning
import BacktrackRegex.Proofs.Membership

/-! Two ways to match a text whatever its case: as a literal, which compares folds, and as a row of
classes, which look for each character of the text among the case forms of the input's. The folds
are those of single characters, while a form may have several, so the two part where case is not a
matter of one small and one capital letter. -/
namespace BacktrackRegex

namespace Text

variable {t : Text} {p : Nat} {c : Char}

def charsFrom (t : Text) (p : Nat) : List Char :=
  match _ : t.charAt p with
  | .ok (some c) => c :: t.charsFrom (p + c.utf8Size)
  | _ => []
termination_by t.size - p
decreasing_by
  have := lt_size_of_charAt ‹_›
  have := c.utf8Size_pos
  omega

theorem charsFrom_cons (read : t.charAt p = .ok (some c)) :
    t.charsFrom p = c :: t.charsFrom (p + c.utf8Size) := by
  rw [charsFrom]
  split
  · next read' => cases read.symm.trans read'; rfl
  · next ended => exact absurd read (ended c)

end Text

def AmongForms (c d : Char) : Prop :=
  c = d ∨ c ∈ Unicode.lowercase d ∨ c ∈ Unicode.uppercase d

/-- Whether comparing folds and looking among forms come to the same for a character `c` of a text
and a character `d` of the input. -/
def Concordant (c d : Char) : Prop := fold c = fold d ↔ AmongForms c d

/-- A character whose case is plain: one small and one capital letter are each other's forms, and it
is one of them. They may be the same. -/
def isPlain (x : Char) : Bool :=
  match Unicode.lowercase x, Unicode.uppercase x with
  | [l], [u] => Unicode.lowercase u = [l] && Unicode.uppercase l = [u] && (x = l || x = u)
  | _, _ => false

theorem isPlain_iff {x : Char} : isPlain x = true ↔ ∃ l u, Unicode.lowercase x = [l] ∧
    Unicode.uppercase x = [u] ∧ Unicode.lowercase u = [l] ∧ Unicode.uppercase l = [u] ∧
    (x = l ∨ x = u) := by
  unfold isPlain
  split
  · next l u lower upper => simp [lower, upper, and_assoc]
  · next several =>
    refine ⟨fun plain => absurd plain Bool.false_ne_true, ?_⟩
    rintro ⟨l, u, lower, upper, _⟩
    exact absurd upper (several l u lower)

theorem concordant_of_isPlain {c d : Char} (plain : isPlain c = true) (plain' : isPlain d = true) :
    Concordant c d := by
  obtain ⟨l, u, lower, upper, lowers, uppers, among⟩ := isPlain_iff.mp plain
  obtain ⟨l', u', lower', upper', lowers', uppers', among'⟩ := isPlain_iff.mp plain'
  have folds : fold c = fold d ↔ l = l' := by simp [fold, lower, lower']
  have capitals : l = l' ↔ u = u' :=
    ⟨fun same => by simpa [uppers, uppers'] using congrArg Unicode.uppercase same,
      fun same => by simpa [lowers, lowers'] using congrArg Unicode.lowercase same⟩
  rw [Concordant, folds, AmongForms, lower', upper', List.mem_singleton, List.mem_singleton]
  constructor
  · rintro rfl
    obtain rfl := capitals.mp rfl
    exact .inr among
  · rintro (same | same | same)
    · simpa [same, lower'] using lower.symm
    · exact capitals.mpr (by simpa [same, uppers'] using upper.symm)
    · simpa [same, lowers'] using lower.symm

def CharClass.folded (c : Char) : CharClass := (CharClass.empty.addChar c).ignoreCase

theorem CharClass.folded_admits {c d : Char} : (folded c).admits d = true ↔ AmongForms c d := by
  have described : (folded c).admits d = describes [.addChar c, .ignoreCase] d :=
    admits_build .empty [.addChar c, .ignoreCase] d
  simp [described, describes, memberForm, member, Call.accepts, AmongForms]

namespace Expr

def foldedClasses (text : String) : Expr :=
  concat (text.toList.map fun c => charClass (.folded c))

variable {t : Text} {text : String} {g g' : Graph}

theorem foldedClasses_captureCount (text : String) : (foldedClasses text).captureCount = 0 := by
  rw [foldedClasses, captureCount]
  induction text.toList with
  | nil => rfl
  | cons c cs ih => simpa [captureCountAll, captureCount] using ih

theorem foldedClasses_compile (text : String) : ∃ g, (foldedClasses text).compile = .ok g := by
  apply compile_of_check
  rw [foldedClasses_captureCount, foldedClasses, check]
  induction text.toList with
  | nil => rfl
  | cons c cs ih => exact ih

theorem waysAll_folded {cs : List Char} {origin cap p : Nat} {held : Holdings}
    (valid : t.isBoundary p = true)
    (agree : ∀ pair ∈ cs.zip (t.charsFrom p), Concordant pair.1 pair.2) :
    waysAll t origin (cs.map fun c => charClass (.folded c)) cap p held =
      leafWays held (foldedEnd t cs p) := by
  induction cs generalizing cap p with
  | nil => rfl
  | cons c cs ih =>
    obtain ⟨found, read⟩ := Text.charAt_ok valid
    rw [List.map_cons, waysAll, ways, foldedEnd, CharClass.endAt, read]
    cases found with
    | none => rfl
    | some d =>
      rw [Text.charsFrom_cons read, List.zip_cons_cons, List.forall_mem_cons] at agree
      have same : eqIgnoringCase c d = (CharClass.folded c).admits d := by
        rw [Bool.eq_iff_iff, eqIgnoringCase_iff, CharClass.folded_admits]
        exact agree.1
      simp only [ok_bind, same]
      by_cases admits : (CharClass.folded c).admits d
      · simp only [if_pos admits]
        exact (List.append_nil _).trans (ih (Text.charAt_next read).2 agree.2)
      · simp only [if_neg admits]
        rfl

/-- A literal without regard to case and the row of the classes of its characters compile, and a
match of either ends the same, as long as folds and forms say the same of each character of the text
and the one of the input that stands in its place. That they do if the case of both is plain. -/
theorem foldedLiteral_eq_classes (text : String) :
    (∃ g g', (literal text true).compile = .ok g ∧ (foldedClasses text).compile = .ok g' ∧
      ∀ (t : Text) (start : Nat) (options : MatchOptions), t.isBoundary start = true →
        options.Unlimited →
        (∀ pair ∈ text.toList.zip (t.charsFrom start), Concordant pair.1 pair.2) →
        g.run t start options = g'.run t start options) ∧
    ∀ c d, isPlain c = true → isPlain d = true → Concordant c d := by
  refine ⟨?_, fun c d => concordant_of_isPlain⟩
  obtain ⟨g, ok⟩ : ∃ g, (literal text true).compile = .ok g := ⟨_, rfl⟩
  obtain ⟨g', ok'⟩ := foldedClasses_compile text
  refine ⟨g, g', ok, ok', fun t start options valid unlimited agree => ?_⟩
  rw [(compile_compiled ok).run_eq valid unlimited, (compile_compiled ok').run_eq valid unlimited]
  obtain ⟨_, taken, _⟩ := Text.boundary_ok valid
  have ways (held : Holdings) : (literal text true).ways t start 1 start held =
      (foldedClasses text).ways t start 1 start held := by
    rw [foldedClasses, ways, ways, waysAll_folded valid agree, literalEnd, taken, ok_bind,
      if_pos rfl]
  rw [firstHeld?, firstHeld?, foldedClasses_captureCount, ways]
  rfl

theorem foldedLiteral_eq_classes_plain : ∃ g g', (literal "Ab" true).compile = .ok g ∧
    (foldedClasses "Ab").compile = .ok g' ∧
    g.run ⟨"éaB!", by decide⟩ 2 .unlimited = g'.run ⟨"éaB!", by decide⟩ 2 .unlimited := by
  obtain ⟨⟨g, g', ok, ok', same⟩, plain⟩ := foldedLiteral_eq_classes "Ab"
  refine ⟨g, g', ok, ok', same _ 2 _ (by decide) MatchOptions.unlimited_free ?_⟩
  let t : Text := ⟨"éaB!", by decide⟩
  have first : t.charAt 2 = .ok (some 'a') := by decide +kernel
  have second : t.charAt (2 + 'a'.utf8Size) = .ok (some 'B') := by decide +kernel
  rw [Text.charsFrom_cons first, Text.charsFrom_cons second]
  intro pair among
  obtain rfl | rfl : pair = ('A', 'a') ∨ pair = ('b', 'B') := by simpa using among
  · exact plain 'A' 'a' (by decide +kernel) (by decide +kernel)
  · exact plain 'b' 'B' (by decide +kernel) (by decide +kernel)

/-- A long s has the capital `S` for its form, but its fold is its own. -/
theorem long_s_tells_apart : ¬ ∀ (text : String) (g g' : Graph) (t : Text) (start : Nat),
    text ≠ "" → (literal text true).compile = .ok g → (foldedClasses text).compile = .ok g' →
    t.isBoundary start = true → g.run t start .unlimited = g'.run t start .unlimited := by
  intro same
  obtain ⟨g, ok⟩ : ∃ g, (literal "S" true).compile = .ok g := ⟨_, rfl⟩
  obtain ⟨g', ok'⟩ := foldedClasses_compile "S"
  have missed : (literal "S" true).firstHeld? ⟨"ſ", by decide⟩ 0 0 = none := by decide +kernel
  have found : (foldedClasses "S").firstHeld? ⟨"ſ", by decide⟩ 0 0 = some [some ⟨0, 2⟩] := by
    decide +kernel
  have agree := same "S" g g' ⟨"ſ", by decide⟩ 0 (by decide) ok ok' (by decide)
  rw [(compile_compiled ok).run_eq (by decide) MatchOptions.unlimited_free, missed,
    (compile_compiled ok').run_eq (by decide) MatchOptions.unlimited_free, found] at agree
  cases agree

end Expr
end BacktrackRegex
