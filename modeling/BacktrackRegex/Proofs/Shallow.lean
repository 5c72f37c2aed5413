import BacktrackRegex.Proofs.Regions

/-! Steps that visit no node raise other faults than the one for too deep a nesting. -/
namespace BacktrackRegex

def Shallow (x : Except Fault α) : Prop := x ≠ .error .nesting

namespace Shallow

theorem ok (a : α) : Shallow (.ok a : Except Fault α) := by simp [Shallow]

theorem fault {e : Fault} (other : e ≠ .nesting) : Shallow (.error e : Except Fault α) := by
  simpa [Shallow] using other

theorem bind {x : Except Fault α} {f : α → Except Fault β} (first : Shallow x)
    (rest : ∀ a, x = .ok a → Shallow (f a)) : Shallow (x >>= f) := by
  cases x with
  | error e => exact fun same => first (by cases same; rfl)
  | ok a => exact rest a rfl

theorem orElse {a : Attempted} {other : MatchState → Attempted} (first : Shallow a)
    (rest : ∀ s, a = .ok (none, s) → Shallow (other s)) : Shallow (a.orElse other) := by
  apply first.bind
  intro (stop, s) answer
  cases stop with
  | some q => exact .ok _
  | none => exact rest s answer

theorem orUndo {a : Attempted} {undo : MatchState → Except Fault MatchState} (first : Shallow a)
    (rest : ∀ s, Shallow (undo s)) : Shallow (a.orUndo undo) := by
  apply first.bind
  intro (stop, s) _
  cases stop with
  | some q => exact .ok _
  | none =>
    apply (rest s).bind
    intro undone _
    exact .ok _

theorem read (file : Array α) (i : Nat) : Shallow (Registers.read file i) := by
  intro failed
  cases Registers.read_fault failed

theorem write (file : Array α) (i : Nat) (x : α) : Shallow (Registers.write file i x) := by
  intro failed
  cases Registers.write_fault failed

theorem map {x : Except Fault α} {f : α → β} (inner : Shallow x) : Shallow (x.map f) := by
  cases x with
  | error e => exact fun same => inner (by cases same; rfl)
  | ok a => exact .ok _

theorem setConsumed (s : MatchState) (slot : Nat) (p : Option Nat) :
    Shallow (s.setConsumed slot p) := by
  have written := write s.regs.consumed slot p
  have registers : Shallow (s.regs.setConsumed slot p) := written.bind fun _ _ => .ok _
  exact registers.bind fun _ _ => .ok _

theorem setCount (s : MatchState) (slot n : Nat) : Shallow (s.setCount slot n) := by
  have written := write s.regs.counts slot n
  have registers : Shallow (s.regs.setCount slot n) := written.bind fun _ _ => .ok _
  exact registers.bind fun _ _ => .ok _

theorem setGroup (s : MatchState) (n : Nat) (start stop : Option Nat) :
    Shallow (s.setGroup n start stop) := by
  have registers : Shallow (s.regs.setGroup n start stop) := by
    apply (write s.regs.starts n start).bind
    intro starts _
    apply (write s.regs.ends n stop).bind
    intro ends _
    exact .ok _
  exact registers.bind fun _ _ => .ok _

theorem save (s : MatchState) (f : Frame) : Shallow (s.save f) := by
  unfold MatchState.save
  split
  · exact .ok _
  · exact .fault (by simp)

theorem group (s : MatchState) (n : Nat) : Shallow (s.group n) := by
  refine (read _ _).bind fun start _ => (read _ _).bind fun stop _ => ?_
  cases start <;> cases stop <;> exact .ok _

theorem node (g : Graph) (id : NodeId) : Shallow (g.node id) := by
  intro failed
  cases Graph.node_fault failed

theorem loopAt (g : Graph) (id : NodeId) : Shallow (g.loopAt? id) := by
  apply (node g id).bind
  intro n _
  cases n <;> exact .ok _

theorem boundary (t : Text) (p : Nat) : Shallow (t.boundary p) := by
  unfold Text.boundary
  split
  · exact .ok _
  · exact .fault (by simp)

theorem charAt (t : Text) (p : Nat) : Shallow (t.charAt p) := by
  have read := boundary t p
  exact read.map

theorem byteAt (t : Text) (p : Nat) : Shallow (t.byteAt p) := by
  unfold Text.byteAt
  split
  · exact .ok _
  · exact .fault (by simp)

theorem slice (t : Text) (start stop : Nat) : Shallow (t.slice start stop) := by
  apply (boundary t start).bind
  intro p _
  apply (boundary t stop).bind
  intro q _
  split
  · exact .ok _
  · exact .fault (by simp)

theorem foldedEnd (t : Text) (cs : List Char) (p : Nat) : Shallow (foldedEnd t cs p) := by
  induction cs generalizing p with
  | nil => exact .ok _
  | cons c cs ih =>
    refine (charAt t p).bind fun found _ => ?_
    cases found with
    | none => exact .ok _
    | some d =>
      dsimp only
      split
      · exact ih _
      · exact .ok _

theorem literalEnd (piece : String) (ignoreCase : Bool) (t : Text) (p : Nat) :
    Shallow (literalEnd piece ignoreCase t p) := by
  refine (boundary t p).bind fun _ _ => ?_
  split
  · exact foldedEnd _ _ _
  · exact .ok _

theorem holdsAt (condition : Anchor) (t : Text) (p origin : Nat) :
    Shallow (condition.holdsAt t p origin) := by
  have wordBoundary : Shallow (isWordBoundary t p) :=
    (boundary t p).map.bind fun _ _ => (charAt t p).bind fun _ _ => .ok _
  cases condition <;> unfold Anchor.holdsAt
  case wordBoundary => exact wordBoundary
  case notWordBoundary => exact wordBoundary.bind fun _ _ => .ok _
  case endTextOptionalNewline =>
    dsimp only
    split
    · exact .ok _
    · split
      · exact (byteAt _ _).bind fun _ _ => .ok _
      · exact .ok _
  case startLine | endLine =>
    dsimp only
    split
    · exact .ok _
    · exact (byteAt _ _).bind fun _ _ => .ok _
  all_goals exact .ok _

theorem leafEnd (g : Graph) (t : Text) (s : MatchState) (id : NodeId) (p : Nat) :
    Shallow (g.leafEnd t s id p) := by
  refine (node g id).bind fun n _ => ?_
  cases n with
  | literal text ignoreCase _ => exact literalEnd _ _ _ _
  | charClass members _ =>
    refine (charAt t p).bind fun found _ => ?_
    cases found <;> exact .ok _
  | backReference n ignoreCase _ =>
    refine (group s n).bind fun captured _ => ?_
    cases captured with
    | none => exact .ok _
    | some span => exact (slice _ _ _).bind fun _ _ => literalEnd _ _ _ _
  | anchor condition _ => exact (holdsAt _ _ _ _).bind fun _ _ => .ok _
  | _ => exact .ok _

theorem leafEnds {leaf : Attempt.LeafEnd} (shallow : ∀ p, Shallow (leaf p)) (n p : Nat) :
    Shallow (Attempt.leafEnds leaf n p) := by
  induction n generalizing p with
  | zero => exact .ok _
  | succ n ih =>
    refine (shallow p).bind fun found _ => ?_
    cases found with
    | none => exact .ok _
    | some stop =>
      dsimp only
      split
      · exact (ih _).bind fun _ _ => .ok _
      · exact .ok _

end Shallow

end BacktrackRegex
