import BacktrackRegex.Fault
import BacktrackRegex.Word

/-! Texts and the byte offsets into them. An offset is a boundary if a character starts there or the
text ends there. Reading a character or cutting a piece is defined at boundaries alone, reading a
byte everywhere before the end; all else is a fault. -/
namespace BacktrackRegex

structure Text where
  string : String
  size_lt : string.utf8ByteSize < Word.modulus := by decide
  deriving DecidableEq

namespace Text

def ofString? (s : String) : Option Text :=
  if h : s.utf8ByteSize < Word.modulus then some ⟨s, h⟩ else none

def size (t : Text) : Nat := t.string.utf8ByteSize

def isBoundary (t : Text) (p : Nat) : Bool := String.Pos.Raw.isValid t.string ⟨p⟩

@[inline]
def boundary (t : Text) (p : Nat) : Except Fault t.string.Pos :=
  if h : String.Pos.Raw.IsValid t.string ⟨p⟩ then .ok (t.string.pos ⟨p⟩ h) else .error .offset

@[inline]
def charAt (t : Text) (p : Nat) : Except Fault (Option Char) := (t.boundary p).map (·.get?)

def charBefore (t : Text) (p : Nat) : Except Fault (Option Char) :=
  (t.boundary p).map fun q => q.prev?.bind (·.get?)

theorem lt_size_of_charAt {t : Text} {p : Nat} {c : Char} (h : t.charAt p = .ok (some c)) :
    p < t.size := by
  simp only [charAt, boundary] at h
  split at h
  · next valid =>
    refine Nat.lt_of_le_of_ne valid.le_utf8ByteSize fun eq => ?_
    change p = t.string.utf8ByteSize at eq
    subst eq
    have atEnd : t.string.pos ⟨t.string.utf8ByteSize⟩ valid = t.string.endPos := rfl
    simp [Except.map, atEnd] at h
  · cases h

def byte? (s : String) (p : Nat) : Option UInt8 :=
  if h : p < s.utf8ByteSize then some (s.getUTF8Byte ⟨p⟩ h) else none

def byteAt (t : Text) (p : Nat) : Except Fault UInt8 :=
  match byte? t.string p with
  | some b => .ok b
  | none => .error .offset

def slice (t : Text) (start stop : Nat) : Except Fault String := do
  let p ← t.boundary start
  let q ← t.boundary stop
  if p ≤ q then return t.string.extract p q else throw .offset

def hasBytes (t : Text) (piece : String) (p : Nat) : Bool :=
  piece.utf8ByteSize.all fun i _ => byte? piece i == byte? t.string (p + i)

def findByte (t : Text) (b : UInt8) (p : Nat) : Option Nat :=
  if h : p < t.size then
    if t.string.getUTF8Byte ⟨p⟩ h = b then some p else findByte t b (p + 1)
  else none
termination_by t.size - p

theorem le_of_findByte {t : Text} {b : UInt8} {p q : Nat} (h : t.findByte b p = some q) :
    p ≤ q := by
  fun_induction findByte t b p with
  | case1 p hp hb => simp_all
  | case2 p hp hb ih => exact Nat.le_of_succ_le (ih h)
  | case3 => simp at h

end Text

end BacktrackRegex
