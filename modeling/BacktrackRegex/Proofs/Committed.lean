import BacktrackRegex.Proofs.WellFormed
import BacktrackRegex.Proofs.Histories

/-! What a branch of an atomic group or a lookahead has changed when it comes to its commit: nothing
but registers of the frame that the group puts back. The frame is what lies in the group, so the
registers of the group itself and of all that it lies in are as they were. -/
namespace BacktrackRegex

variable {e : Expr} {g : Graph} {id m : NodeId} {n n' : Node} {branches : List NodeId}
  {inner : Frame} {slot k : Nat}

/-- The part that the node `m` is made from lies around that of the node `id`. -/
def Expr.Encloses (e : Expr) (m id : NodeId) : Prop :=
  ∃ above path, e.source? m = some above ∧ e.source? id = some path ∧
    above <+: path ∧ above ≠ path

theorem Node.frame?_of_enclosed? (enclosed : n.enclosed? = some (branches, inner)) :
    ∃ slot, n.frame? = some (slot, inner) := by
  cases n with
  | atomic slot | lookAhead slot =>
    cases enclosed
    exact ⟨slot, rfl⟩
  | _ => cases enclosed

namespace Graph.WellFormed

theorem slot_outside (wellFormed : g.WellFormed e) (node : g.nodes[id]? = some n)
    (framed : n.frame? = some (slot, inner)) (around : m = id ∨ e.Encloses m id)
    (other : g.nodes[m]? = some n') (owns : n'.owned? = some k) :
    inner.slots.contains k = false := by
  rw [Bool.eq_false_iff]
  intro inside
  obtain ⟨path, source, frame⟩ := wellFormed.frame node framed
  -- Whoever owns `k` inside the group is `m` itself, which lies around it or is the group.
  obtain ⟨i, owner, path', apart, node', owns', source', below⟩ := (frame k).1.mp inside
  obtain rfl : i = m := (wellFormed.owner k (wellFormed.slot other (.inl owns))).unique
    ⟨owner, node', owns'⟩ ⟨n', other, owns⟩
  obtain same | ⟨above, _, source₁, source₂, up, proper⟩ := around
  · exact apart same
  · obtain rfl := Option.some.inj (source'.symm.trans source₁)
    obtain rfl := Option.some.inj (source.symm.trans source₂)
    exact proper (up.eq_of_length_le below.length_le)

theorem match_outside (wellFormed : g.WellFormed e) (node : g.nodes[id]? = some n)
    (framed : n.frame? = some (slot, inner)) : inner.captures.contains 0 = false := by
  rw [Bool.eq_false_iff]
  intro inside
  obtain ⟨path, -, frame⟩ := wellFormed.frame node framed
  obtain ⟨path', numbered, -⟩ := (frame 0).2.mp inside
  exact absurd (List.mem_zipIdx numbered).1 (Nat.not_succ_le_zero 0)

end Graph.WellFormed

/-- A branch of an atomic group or a lookahead that comes to its end, from whatever registers and
however deep visits may nest, has changed no register outside the group's frame. So the slots of the
group and of what lies around it, and the whole match, are as before; and if the frame is put back,
all registers are. -/
theorem Expr.branch_framed {e : Expr} {g : Graph} (ok : e.compile = .ok g) {id : NodeId} {n : Node}
    {branches : List NodeId} {inner : Frame} (node : g.nodes[id]? = some n)
    (enclosed : n.enclosed? = some (branches, inner)) {b : NodeId} (member : b ∈ branches)
    {t : Text} {depth p q : Nat} {s s' : MatchState} (sized : g.Sized s.regs)
    (committed : g.attemptWithin t depth b p s = .ok (some q, s')) :
    s.regs.AgreeOutside inner s'.regs ∧
    (∀ m n' k, m = id ∨ e.Encloses m id → g.nodes[m]? = some n' → n'.owned? = some k →
      s'.regs.consumed[k]? = s.regs.consumed[k]? ∧ s'.regs.counts[k]? = s.regs.counts[k]?) ∧
    (s'.regs.starts[0]? = s.regs.starts[0]? ∧ s'.regs.ends[0]? = s.regs.ends[0]?) ∧
    ∃ saved, s.save inner = .ok saved ∧ (s'.restoreFrame inner saved).regs = s.regs := by
  have compiled := compile_compiled ok
  have wellFormed := compile_wellFormed ok
  obtain ⟨slot, framed⟩ := Node.frame?_of_enclosed? enclosed
  have same : s.regs.AgreeOutside inner s'.regs :=
    (attemptWithin_tidy compiled.enclosing depth committed).framed inner
      (compiled.enclosing node enclosed b member)
  refine ⟨same, fun m n' k around other owns => ?_, ?_, s.regs, ?_, ?_⟩
  · have outside := wellFormed.slot_outside node framed around other owns
    exact ⟨same.consumed k outside, same.counts k outside⟩
  · have outside := wellFormed.match_outside node framed
    exact ⟨same.starts 0 outside, same.ends 0 outside⟩
  · obtain ⟨_, fitted⟩ := sized
    obtain ⟨captures, slots⟩ := compiled.frame_fits node enclosed
    exact MatchState.save_ok (fitted.starts ▸ captures) (fitted.consumed ▸ slots)
  · exact Registers.restoreFrame_eq same

theorem Expr.branch_framed_nested : ∃ e g s s', e = repetition (group .capture (group .atomic
      (alternation [literal "x" false, concat [group .lookAhead (group .capture
        (literal "ab" false)), literal "a" false]]))) 0 none .greedy ∧
    e.compile = .ok g ∧ g.nodes[13]? = some (.atomic 2 [5, 12] ⟨⟨2, 3⟩, ⟨3, 5⟩⟩ 3) ∧
    s.regs = ⟨#[some 9, none, some 7, some 3, none], #[4, 5, 6, 7, 8], #[some 8, some 0, none],
      #[none, some 2, some 7], 6⟩ ∧
    g.attempt ⟨"xab", by decide⟩ 12 1 s = .ok (some 2, s') ∧
    s'.regs = ⟨#[some 9, none, some 7, some 1, some 1], #[4, 5, 6, 7, 8],
      #[some 8, some 0, some 1], #[none, some 2, some 3], 6⟩ ∧
    s.regs.AgreeOutside ⟨⟨2, 3⟩, ⟨3, 5⟩⟩ s'.regs ∧
    s'.regs.consumed[0]? = s.regs.consumed[0]? ∧ s'.regs.consumed[1]? = s.regs.consumed[1]? ∧
    s'.regs.consumed[2]? = s.regs.consumed[2]? ∧ s'.regs.starts[0]? = s.regs.starts[0]? ∧
    ∃ saved, s.save ⟨⟨2, 3⟩, ⟨3, 5⟩⟩ = .ok saved ∧
      (s'.restoreFrame ⟨⟨2, 3⟩, ⟨3, 5⟩⟩ saved).regs = s.regs := by
  let e := repetition (group .capture (group .atomic (alternation [literal "x" false,
    concat [group .lookAhead (group .capture (literal "ab" false)), literal "a" false]])))
    0 none .greedy
  let g : Graph := ⟨#[.succeed, .loop ⟨0, 14, 0, none, true, 0⟩, .loopTail 1,
    .groupEnd 1 (some 1) 2, .commit 2, .literal "x" false 4, .literal "a" false 4, .commit 3,
    .groupEnd 4 (some 2) 7, .literal "ab" false 8, .group 4 (some 2) [9] 7,
    .lookAhead 3 false [10] ⟨⟨2, 3⟩, ⟨4, 5⟩⟩ 6, .sequence [11, 6] 4,
    .atomic 2 [5, 12] ⟨⟨2, 3⟩, ⟨3, 5⟩⟩ 3, .group 1 (some 1) [13] 2], 1, 2, 5, none⟩
  let s : MatchState := ⟨⟨#[some 9, none, some 7, some 3, none], #[4, 5, 6, 7, 8],
    #[some 8, some 0, none], #[none, some 2, some 7], 6⟩, { options := {} }⟩
  let s' : MatchState := ⟨⟨#[some 9, none, some 7, some 1, some 1], #[4, 5, 6, 7, 8],
    #[some 8, some 0, some 1], #[none, some 2, some 3], 6⟩, ⟨{}, 0, 2, 2, none⟩⟩
  have ok : e.compile = .ok g := by decide +kernel
  have committed : g.attempt ⟨"xab", by decide⟩ 12 1 s = .ok (some 2, s') := by decide +kernel
  have sized : g.Sized s.regs := ⟨6, rfl, rfl, rfl, rfl, rfl⟩
  have node : g.nodes[13]? = some (.atomic 2 [5, 12] ⟨⟨2, 3⟩, ⟨3, 5⟩⟩ 3) := rfl
  have member : 12 ∈ [5, 12] := by decide
  have loop : e.Encloses 1 13 := ⟨[], [0, 0], rfl, rfl, by decide, by decide⟩
  have capture : e.Encloses 14 13 := ⟨[0], [0, 0], rfl, rfl, by decide, by decide⟩
  obtain ⟨same, kept, whole, restored⟩ := branch_framed ok node rfl member sized committed
  exact ⟨e, g, s, s', rfl, ok, node, rfl, committed, rfl, same, (kept 1 _ 0 (.inr loop) rfl rfl).1,
    (kept 14 _ 1 (.inr capture) rfl rfl).1, (kept 13 _ 2 (.inl rfl) rfl rfl).1, whole.1, restored⟩

end BacktrackRegex
