/-! Machine words. Offsets and iteration counters are 64-bit words, so the successor of the largest
one is zero. Texts are shorter than that (`Text.size_lt`), and a counter that starts at zero counts
iterations which each consume a byte, so only a counter set by hand can wrap. -/
namespace BacktrackRegex.Word

def modulus : Nat := 0x10000000000000000

def max : Nat := 0xffffffffffffffff

def next (n : Nat) : Nat := if n = max then 0 else n + 1

theorem next_eq_add_one {n : Nat} (h : n < max) : next n = n + 1 := by
  simp [next, Nat.ne_of_lt h]

end BacktrackRegex.Word
