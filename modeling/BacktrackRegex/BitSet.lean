/-! Sets of the code points below 256, with a bit for each in eight words. -/
namespace BacktrackRegex

def latinSize : Nat := 256

structure BitSet where
  rooms : Vector UInt32 8
  deriving DecidableEq, Repr

namespace BitSet

variable {b : BitSet} {i j : Fin latinSize}

def empty : BitSet := ⟨.replicate 8 0⟩

theorem room_lt (i : Fin latinSize) : i.val >>> 5 < 8 := by
  have bound : i.val < 256 := i.isLt
  rw [Nat.shiftRight_eq_div_pow]
  omega

def room (i : Fin latinSize) : Fin 8 := ⟨i.val >>> 5, room_lt i⟩

def bit (i : Fin latinSize) : UInt32 := 1 <<< UInt32.ofNat (i.val &&& 0x1f)

def contains (b : BitSet) (i : Fin latinSize) : Bool := b.rooms[room i] &&& bit i != 0

def insert (b : BitSet) (i : Fin latinSize) : BitSet :=
  ⟨b.rooms.set (room i) (b.rooms[room i] ||| bit i)⟩

def insertAll (b : BitSet) (is : List (Fin latinSize)) : BitSet := is.foldl insert b

theorem bit_toBitVec (i : Fin latinSize) : (bit i).toBitVec = .twoPow 32 (i.val % 32) := by
  have low : i.val &&& 0x1f = i.val % 32 := Nat.and_two_pow_sub_one_eq_mod i.val 5
  rw [bit, low, UInt32.toBitVec_shiftLeft, BitVec.twoPow_eq]
  apply BitVec.eq_of_toNat_eq
  simp [BitVec.shiftLeft_eq']

theorem masked_bit (word : UInt32) (i : Fin latinSize) :
    (word &&& bit i != 0) = word.toBitVec.getLsbD (i.val % 32) := by
  have small : i.val % 32 < 32 := Nat.mod_lt _ (by decide)
  have masked : word &&& bit i = 0 ↔
      word.toBitVec &&& .twoPow 32 (i.val % 32) = 0#32 := by
    rw [← UInt32.toBitVec_inj, UInt32.toBitVec_and, bit_toBitVec]
    rfl
  have nonzero : BitVec.twoPow 32 (i.val % 32) ≠ 0#32 := by
    intro zero
    have read := congrArg (·.getLsbD (i.val % 32)) zero
    simp [small] at read
  rw [BitVec.and_twoPow] at masked
  cases present : word.toBitVec.getLsbD (i.val % 32) with
  | false => simpa [present] using masked
  | true => simpa [present, nonzero] using masked

theorem contains_empty (i : Fin latinSize) : empty.contains i = false := by
  simp [contains, empty]

theorem contains_insert : (b.insert i).contains j = (b.contains j || decide (i = j)) := by
  simp only [contains, insert, masked_bit, Fin.getElem_fin]
  by_cases same : (room i).val = (room j).val
  · have alike : j.val % 32 = i.val % 32 ↔ i = j := by
      simp only [room, Nat.shiftRight_eq_div_pow] at same
      rw [Fin.ext_iff]
      omega
    have small : j.val % 32 < 32 := Nat.mod_lt _ (by decide)
    simp [same, bit_toBitVec, small, alike]
  · have apart : i ≠ j := by
      rintro rfl
      exact same rfl
    simp [same, apart]

theorem contains_insertAll {is : List (Fin latinSize)} :
    (b.insertAll is).contains j = true ↔ b.contains j = true ∨ j ∈ is := by
  induction is generalizing b with
  | nil => simp [insertAll]
  | cons i is ih =>
    have first : b.insertAll (i :: is) = (b.insert i).insertAll is := rfl
    rw [first, ih, contains_insert, Bool.or_eq_true, decide_eq_true_iff, or_assoc, List.mem_cons,
      eq_comm (a := i)]

end BitSet

end BacktrackRegex
