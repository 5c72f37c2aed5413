import BacktrackRegex.Proofs.Attempts

/-! Registers as values: what a write changes, which registers lie outside a frame, and what a frame
that is put back leaves behind. -/
namespace BacktrackRegex

namespace Interval

theorem contains_iff {r : Interval} {n : Nat} : r.contains n = true ↔ r.start ≤ n ∧ n < r.stop := by
  simp [contains]

theorem overlay_size (r : Interval) (old new : Array α) : (r.overlay old new).size = new.size := by
  simp [overlay]

theorem overlay_eq {r : Interval} {old new : Array α} (size : old.size = new.size)
    (outside : ∀ i, r.contains i = false → old[i]? = new[i]?) : r.overlay old new = old := by
  apply Array.ext (by rw [overlay_size, size])
  intro i left right
  have bound : i < new.size := by omega
  cases inside : r.contains i with
  | true => simp [overlay, inside, right]
  | false =>
    have same := outside i inside
    rw [Array.getElem?_eq_getElem right, Array.getElem?_eq_getElem bound] at same
    simpa [overlay, inside] using (Option.some.inj same).symm

end Interval

namespace Registers

theorem read_success {file : Array α} {i : Nat} {x : α} :
    read file i = .ok x ↔ file[i]? = some x := by
  unfold read
  cases file[i]? <;> simp

theorem read_fault {file : Array α} {i : Nat} {e : Fault} (failed : read file i = .error e) :
    e = .register := by
  unfold read at failed
  cases h : file[i]? with
  | none => rw [h] at failed; cases failed; rfl
  | some x => rw [h] at failed; cases failed

theorem write_fault {file : Array α} {i : Nat} {x : α} {e : Fault}
    (failed : write file i x = .error e) : e = .register := by
  unfold write at failed
  split at failed
  · cases failed
  · cases failed; rfl

def putConsumed (r : Registers) (slot : Nat) (p : Option Nat) : Registers :=
  { r with consumed := r.consumed.setIfInBounds slot p }

def putCount (r : Registers) (slot n : Nat) : Registers :=
  { r with counts := r.counts.setIfInBounds slot n }

def putGroup (r : Registers) (n : Nat) (start stop : Option Nat) : Registers :=
  { r with starts := r.starts.setIfInBounds n start, ends := r.ends.setIfInBounds n stop }

theorem setIfInBounds_back {file : Array α} {i : Nat} {prior : α} (x : α)
    (was : file[i]? = some prior) : (file.setIfInBounds i x).setIfInBounds i prior = file := by
  obtain ⟨bound, rfl⟩ := Array.getElem?_eq_some_iff.mp was
  rw [Array.setIfInBounds_setIfInBounds, Array.setIfInBounds_def, dif_pos bound,
    Array.set_getElem_self]

theorem putConsumed_back {r : Registers} {slot : Nat} {prior : Option Nat} (p : Option Nat)
    (was : r.consumed[slot]? = some prior) :
    (r.putConsumed slot p).putConsumed slot prior = r := by
  simp only [putConsumed, setIfInBounds_back p was]

theorem putCount_back {r : Registers} {slot prior : Nat} (n : Nat)
    (was : r.counts[slot]? = some prior) : (r.putCount slot n).putCount slot prior = r := by
  simp only [putCount, setIfInBounds_back n was]

theorem putGroup_back {r : Registers} {n : Nat} {priorStart priorStop : Option Nat}
    (start stop : Option Nat) (wasStart : r.starts[n]? = some priorStart)
    (wasStop : r.ends[n]? = some priorStop) :
    (r.putGroup n start stop).putGroup n priorStart priorStop = r := by
  simp only [putGroup, setIfInBounds_back start wasStart, setIfInBounds_back stop wasStop]

structure SameShape (r r' : Registers) : Prop where
  consumed : r'.consumed.size = r.consumed.size
  counts : r'.counts.size = r.counts.size
  starts : r'.starts.size = r.starts.size
  ends : r'.ends.size = r.ends.size
  origin : r'.origin = r.origin

/-- Equal registers but for those inside the frame. -/
structure AgreeOutside (f : Frame) (r r' : Registers) : Prop where
  shape : SameShape r r'
  consumed : ∀ i, f.slots.contains i = false → r'.consumed[i]? = r.consumed[i]?
  counts : ∀ i, f.slots.contains i = false → r'.counts[i]? = r.counts[i]?
  starts : ∀ i, f.captures.contains i = false → r'.starts[i]? = r.starts[i]?
  ends : ∀ i, f.captures.contains i = false → r'.ends[i]? = r.ends[i]?

theorem SameShape.refl (r : Registers) : SameShape r r := by
  constructor <;> rfl

theorem SameShape.trans {a b c : Registers} (ab : SameShape a b) (bc : SameShape b c) :
    SameShape a c := by
  constructor
  case consumed => rw [bc.consumed, ab.consumed]
  case counts => rw [bc.counts, ab.counts]
  case starts => rw [bc.starts, ab.starts]
  case ends => rw [bc.ends, ab.ends]
  case origin => rw [bc.origin, ab.origin]

theorem AgreeOutside.refl (f : Frame) (r : Registers) : AgreeOutside f r r := by
  constructor
  case shape => exact .refl r
  all_goals
    intros
    rfl

theorem AgreeOutside.trans {f : Frame} {a b c : Registers} (ab : AgreeOutside f a b)
    (bc : AgreeOutside f b c) : AgreeOutside f a c := by
  constructor
  case shape => exact ab.shape.trans bc.shape
  all_goals intro i out
  case consumed => rw [bc.consumed i out, ab.consumed i out]
  case counts => rw [bc.counts i out, ab.counts i out]
  case starts => rw [bc.starts i out, ab.starts i out]
  case ends => rw [bc.ends i out, ab.ends i out]

theorem sameShape_putConsumed (r : Registers) (slot : Nat) (p : Option Nat) :
    SameShape r (r.putConsumed slot p) := by constructor <;> simp [putConsumed]

theorem sameShape_putCount (r : Registers) (slot n : Nat) : SameShape r (r.putCount slot n) := by
  constructor <;> simp [putCount]

theorem sameShape_putGroup (r : Registers) (n : Nat) (start stop : Option Nat) :
    SameShape r (r.putGroup n start stop) := by constructor <;> simp [putGroup]

theorem agreeOutside_putConsumed {f : Frame} {slot : Nat} (r : Registers) (p : Option Nat)
    (inside : f.slots.contains slot = true) : AgreeOutside f r (r.putConsumed slot p) := by
  constructor
  case shape => exact sameShape_putConsumed r slot p
  case consumed =>
    intro i out
    have other : slot ≠ i := by rintro rfl; simp [inside] at out
    simp [putConsumed, other]
  case counts =>
    intro _ _
    rfl
  case starts =>
    intro _ _
    rfl
  case ends =>
    intro _ _
    rfl

theorem agreeOutside_putCount {f : Frame} {slot : Nat} (r : Registers) (n : Nat)
    (inside : f.slots.contains slot = true) : AgreeOutside f r (r.putCount slot n) := by
  constructor
  case shape => exact sameShape_putCount r slot n
  case consumed =>
    intro _ _
    rfl
  case counts =>
    intro i out
    have other : slot ≠ i := by rintro rfl; simp [inside] at out
    simp [putCount, other]
  case starts =>
    intro _ _
    rfl
  case ends =>
    intro _ _
    rfl

theorem agreeOutside_putGroup {f : Frame} {n : Nat} (r : Registers) (start stop : Option Nat)
    (inside : f.captures.contains n = true) : AgreeOutside f r (r.putGroup n start stop) := by
  constructor
  case shape => exact sameShape_putGroup r n start stop
  case consumed =>
    intro _ _
    rfl
  case counts =>
    intro _ _
    rfl
  case starts =>
    intro i out
    have other : n ≠ i := by rintro rfl; simp [inside] at out
    simp [putGroup, other]
  case ends =>
    intro i out
    have other : n ≠ i := by rintro rfl; simp [inside] at out
    simp [putGroup, other]

theorem agreeOutside_of_putConsumed {f : Frame} {old new : Registers} {slot : Nat}
    {begun prior : Option Nat} (same : AgreeOutside f (old.putConsumed slot begun) new)
    (was : old.consumed[slot]? = some prior) : AgreeOutside f old (new.putConsumed slot prior) := by
  constructor
  case shape =>
    exact ((sameShape_putConsumed old slot begun).trans same.shape).trans
      (sameShape_putConsumed new slot prior)
  case consumed =>
    intro i out
    by_cases here : slot = i
    · subst here
      have bound := (Array.getElem?_eq_some_iff.mp was).1
      have size : new.consumed.size = old.consumed.size := by
        simpa [putConsumed] using same.shape.consumed
      rw [was]
      simp [putConsumed, size, bound]
    · simpa [putConsumed, here] using same.consumed i out
  case counts => exact same.counts
  case starts => exact same.starts
  case ends => exact same.ends

/-- A frame that is put back undoes what happened inside it. -/
theorem restoreFrame_eq {f : Frame} {old new : Registers} (same : AgreeOutside f old new) :
    new.restoreFrame f old = old := by
  have consumed := Interval.overlay_eq same.shape.consumed.symm
    fun i out => (same.consumed i out).symm
  have counts := Interval.overlay_eq same.shape.counts.symm fun i out => (same.counts i out).symm
  have starts := Interval.overlay_eq same.shape.starts.symm fun i out => (same.starts i out).symm
  have ends := Interval.overlay_eq same.shape.ends.symm fun i out => (same.ends i out).symm
  simp only [restoreFrame, consumed, counts, starts, ends, same.shape.origin]

theorem restoreFrame_putConsumed (f : Frame) (old new : Registers) (slot : Nat)
    (prior : Option Nat) (was : old.consumed[slot]? = some prior) :
    (new.restoreFrame f old).putConsumed slot prior =
      (new.putConsumed slot prior).restoreFrame f old := by
  simp only [putConsumed, restoreFrame, mk.injEq, and_self, and_true]
  apply Array.ext (by simp [Interval.overlay])
  intro i left right
  have bound : i < new.consumed.size := by simpa [Interval.overlay] using left
  by_cases here : slot = i
  · subst here
    simp [Interval.overlay, was]
  · simp [Interval.overlay, here, bound]

end Registers

namespace MatchState

theorem consumed_success {s : MatchState} {slot : Nat} {x : Option Nat} :
    s.consumed slot = .ok x ↔ s.regs.consumed[slot]? = some x := by
  rw [consumed, Registers.read_success]

theorem count_success {s : MatchState} {slot n : Nat} :
    s.count slot = .ok n ↔ s.regs.counts[slot]? = some n := by
  rw [count, Registers.read_success]

theorem groupStart_success {s : MatchState} {n : Nat} {x : Option Nat} :
    s.groupStart n = .ok x ↔ s.regs.starts[n]? = some x := by
  rw [groupStart, Registers.read_success]

theorem groupStop_success {s : MatchState} {n : Nat} {x : Option Nat} :
    s.groupStop n = .ok x ↔ s.regs.ends[n]? = some x := by
  rw [groupStop, Registers.read_success]

theorem setConsumed_success {s s' : MatchState} {slot : Nat} {p : Option Nat} :
    s.setConsumed slot p = .ok s' ↔
      slot < s.regs.consumed.size ∧ s' = { s with regs := s.regs.putConsumed slot p } := by
  unfold setConsumed Registers.setConsumed Registers.write Registers.putConsumed
    Array.setIfInBounds
  split
  · next bound => simp [bound, bind, Except.bind, pure, Except.pure, eq_comm]
  · next bound => simp [bound, bind, Except.bind]

theorem setCount_success {s s' : MatchState} {slot n : Nat} :
    s.setCount slot n = .ok s' ↔
      slot < s.regs.counts.size ∧ s' = { s with regs := s.regs.putCount slot n } := by
  unfold setCount Registers.setCount Registers.write Registers.putCount Array.setIfInBounds
  split
  · next bound => simp [bound, bind, Except.bind, pure, Except.pure, eq_comm]
  · next bound => simp [bound, bind, Except.bind]

theorem setGroup_success {s s' : MatchState} {n : Nat} {start stop : Option Nat} :
    s.setGroup n start stop = .ok s' ↔ n < s.regs.starts.size ∧ n < s.regs.ends.size ∧
      s' = { s with regs := s.regs.putGroup n start stop } := by
  unfold setGroup Registers.setGroup Registers.write Registers.putGroup Array.setIfInBounds
  by_cases left : n < s.regs.starts.size <;> by_cases right : n < s.regs.ends.size <;>
    simp [left, right, bind, Except.bind, pure, Except.pure, eq_comm]

theorem save_ok {s : MatchState} {f : Frame} (captures : f.captures.stop ≤ s.regs.starts.size)
    (slots : f.slots.stop ≤ s.regs.consumed.size) : s.save f = .ok s.regs := by
  have inside : s.regs.hasFrame f = true := by simp [Registers.hasFrame, captures, slots]
  rw [save, if_pos inside]

end MatchState

end BacktrackRegex
