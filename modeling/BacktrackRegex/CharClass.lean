import BacktrackRegex.BitSet
import BacktrackRegex.Text
import BacktrackRegex.Unicode.Alphabetic
import BacktrackRegex.Unicode.Lowercase
import BacktrackRegex.Unicode.Number
import BacktrackRegex.Unicode.Uppercase
import BacktrackRegex.Unicode.WhiteSpace

/-! Sets of characters. Membership of the first 256 code points is decided when a member is added
and kept in a table; above them the added ranges and shorthands are asked. Two classes are equal if
table, lists (in the order of addition) and modifiers are. -/
namespace BacktrackRegex

def isWordChar (c : Char) : Bool := c == '_' || Unicode.isAlphabetic c || Unicode.isNumber c

inductive Shorthand where
  | digit
  | word
  | space
  deriving DecidableEq, Repr

/-- Digits are those of ASCII; words and white space follow the character properties. -/
def Shorthand.contains : Shorthand → Char → Bool
  | .digit, c => '0' ≤ c && c ≤ '9'
  | .word, c => isWordChar c
  | .space, c => Unicode.isWhiteSpace c

structure CharClass where
  latin : BitSet
  ranges : List (Char × Char)
  /-- The added shorthands; `true` stands for the complement. -/
  shorthands : List (Shorthand × Bool)
  negated : Bool
  ignoresCase : Bool
  deriving DecidableEq, Repr

namespace CharClass

def empty : CharClass := ⟨.empty, [], [], false, false⟩

def addLatin (k : CharClass) (f : Nat → Bool) : CharClass :=
  { k with latin := k.latin.insertAll ((List.finRange latinSize).filter (f ·)) }

@[simp] theorem addLatin_contains (k : CharClass) (f : Nat → Bool) (i : Fin latinSize) :
    (k.addLatin f).latin.contains i = (k.latin.contains i || f i) := by
  rw [Bool.eq_iff_iff, addLatin, BitSet.contains_insertAll]
  simp

@[simp] theorem addLatin_ranges (k : CharClass) (f : Nat → Bool) :
    (k.addLatin f).ranges = k.ranges := rfl

@[simp] theorem addLatin_shorthands (k : CharClass) (f : Nat → Bool) :
    (k.addLatin f).shorthands = k.shorthands := rfl

@[simp] theorem addLatin_modifiers (k : CharClass) (f : Nat → Bool) :
    (k.addLatin f).negated = k.negated ∧ (k.addLatin f).ignoresCase = k.ignoresCase := by
  exact ⟨rfl, rfl⟩

/-- Adds the characters from `lo` to `hi`; nothing if they are out of order. -/
def addRange (k : CharClass) (lo hi : Char) : CharClass :=
  if hi < lo then k
  else
    let k := k.addLatin fun i => lo.toNat ≤ i && i ≤ hi.toNat
    if hi.toNat < latinSize then k
    else
      let lo := if lo.toNat < latinSize then Char.ofNat latinSize else lo
      { k with ranges := k.ranges ++ [(lo, hi)] }

def addChar (k : CharClass) (c : Char) : CharClass := k.addRange c c

def addShorthand (k : CharClass) (s : Shorthand) (complement : Bool) : CharClass :=
  let k := k.addLatin fun i => s.contains (Char.ofNat i) != complement
  { k with shorthands := k.shorthands ++ [(s, complement)] }

def negate (k : CharClass) : CharClass := { k with negated := !k.negated }

def ignoreCase (k : CharClass) : CharClass := { k with ignoresCase := true }

def any (dotAll : Bool) : CharClass :=
  (if dotAll then empty else empty.addChar '\n').negate

def ofShorthand (s : Shorthand) : CharClass := empty.addShorthand s false

/-- Whether `c` was added, the modifiers aside. -/
def contains (k : CharClass) (c : Char) : Bool :=
  if h : c.toNat < latinSize then k.latin.contains ⟨c.toNat, h⟩
  else
    k.ranges.any (fun (lo, hi) => lo ≤ c && c ≤ hi) ||
    k.shorthands.any fun (s, complement) => s.contains c != complement

def containsForm (k : CharClass) (c : Char) : Bool :=
  k.contains c ||
  (k.ignoresCase && ((Unicode.lowercase c).any k.contains || (Unicode.uppercase c).any k.contains))

def admits (k : CharClass) (c : Char) : Bool := k.containsForm c != k.negated

def endAt (k : CharClass) (t : Text) (p : Nat) : Except Fault (Option Nat) := do
  match ← t.charAt p with
  | some c => return if k.admits c then some (p + c.utf8Size) else none
  | none => return none

end CharClass

end BacktrackRegex
