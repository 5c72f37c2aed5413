import Mathlib.Control.Monad.Basic
import BacktrackRegex.Expr.Variants
import BacktrackRegex.Proofs.Abreast

/-! A slot is written before it is read. The group or loop that owns a slot writes it when it is
entered; only its end, its tail and its next iteration read it, and nothing in between writes it but
they. So two matches go abreast from the entry on, whatever is left in the slots by what was matched
before. -/
namespace BacktrackRegex

namespace Live.Apart

variable {live : Live} {i j low high slot : Nat}

theorem part (apart : live.Apart ⟨i, j⟩) (above : i ≤ low) (below : high ≤ j) :
    live.Apart ⟨low, high⟩ := by
  intro k lives
  have outside := apart k lives
  rw [← Bool.not_eq_true, Interval.contains_iff] at outside ⊢
  dsimp only at outside ⊢
  omega

theorem nothing (slots : Interval) : Live.nothing.Apart slots := by
  rintro k (⟨⟨⟩⟩ | ⟨⟨⟩⟩)

theorem afterFirst (apart : live.Apart ⟨slot, j⟩) : live.Apart ⟨slot + 1, j⟩ := by
  apply apart.part
  · exact Nat.le_succ slot
  · exact Nat.le_refl j

theorem first_outside (slot j : Nat) : Interval.contains ⟨slot + 1, j⟩ slot = false := by
  rw [← Bool.not_eq_true, Interval.contains_iff]
  dsimp only
  omega

theorem inGroup (apart : live.Apart ⟨slot, j⟩) : (live.begin slot).Apart ⟨slot + 1, j⟩ := by
  rintro k ((rfl | begun) | counted)
  · exact first_outside k j
  · exact apart.afterFirst k (.inl begun)
  · exact apart.afterFirst k (.inr counted)

theorem inLoop (apart : live.Apart ⟨slot, j⟩) : (live.loop slot).Apart ⟨slot + 1, j⟩ := by
  rintro k ((rfl | begun) | (rfl | counted))
  · exact first_outside k j
  · exact apart.afterFirst k (.inl begun)
  · exact first_outside k j
  · exact apart.afterFirst k (.inr counted)

end Live.Apart

def Graph.InStep (g : Graph) (n : Nat) (t t' : Text) (m : Nat) (live : Live) (id : Nat) : Prop :=
  ∀ depth ≤ m, ∀ depth' p, t.isBoundary p = true →
    InStepAt n live (g.attemptWithin t depth) (g.attemptWithin t' depth') id p

namespace Graph.InStep

variable {g : Graph} {n m fewer : Nat} {t t' : Text} {live : Live} {id : Nat}

theorem mono (inStep : g.InStep n t t' m live id) (le : fewer ≤ m) :
    g.InStep n t t' fewer live id := by
  intro depth within
  exact inStep depth (Nat.le_trans within le)

theorem of_rule (rule : ∀ depth < m, ∀ depth' p, t.isBoundary p = true → InStepAt n live
    (g.visitNode t (g.attemptWithin t depth)) (g.visitNode t' (g.attemptWithin t' depth')) id p) :
    g.InStep n t t' m live id := by
  intro depth le depth' p valid s s' abreast
  match depth, depth' with
  | 0, _ => exact fun _ _ ok => by cases ok
  | _ + 1, 0 => exact fun _ _ _ ok => by cases ok
  | depth + 1, depth' + 1 =>
    unfold attemptWithin
    cases entered : s.enter with
    | mk may u =>
      cases entered' : s'.enter with
      | mk may' u' =>
        obtain ⟨rfl, inside⟩ := abreast.enter entered entered'
        cases may' with
        | false => exact .failure inside.budget
        | true =>
          refine (rule depth le depth' p valid u u' inside).andThen
            (fun v v' _ _ budget => .failure ?_) fun q v v' _ _ after => ?_
          · rw [MatchState.leave, MatchState.leave, budget]
          · exact .success after.leave q

theorem final {end' : Node} (ends : end' = .succeed ∨ ∃ slot, end' = .commit slot)
    (here : g.nodes[id]? = some end') : g.InStep n t t' m live id := by
  refine .of_rule fun depth _ depth' p _ s s' abreast => ?_
  obtain rfl | ⟨slot, rfl⟩ := ends <;>
    simp only [visitNode, node_success.mpr here, bind, Except.bind] <;>
    exact .success abreast p

end Graph.InStep

/-- What is entered at `id` and goes on at `next` uses its slots afresh: two matches keep in step
from `id` on if they do from `next` on, though none of the slots need be alike. -/
structure Graph.Fresh (g : Graph) (n : Nat) (t t' : Text) (slots : Interval) (next id : Nat) :
    Prop where
  inStep : ∀ {m live}, live.Apart slots → g.InStep n t t' m live next → g.InStep n t t' m live id

namespace Graph.Fresh

variable {g : Graph} {n m i j low high next id : Nat} {t t' : Text} {live : Live}

theorem nothing {slots : Interval} : g.Fresh n t t' slots next next := by
  constructor
  intro m live _ after
  exact after

theorem widen (fresh : g.Fresh n t t' ⟨low, high⟩ next id) (above : i ≤ low) (below : high ≤ j) :
    g.Fresh n t t' ⟨i, j⟩ next id := by
  constructor
  intro m live apart
  exact fresh.inStep (apart.part above below)

theorem trans {slots : Interval} {entry : Nat} (later : g.Fresh n t t' slots next entry)
    (first : g.Fresh n t t' slots entry id) : g.Fresh n t t' slots next id := by
  constructor
  intro m live apart after
  have between := later.inStep apart after
  exact first.inStep apart between

variable {slots : Interval}

theorem leaf (displaced : t.Displaced n t') {e : Expr} {leaf : Node}
    (single : e.leafNode? next = some leaf) (here : g.nodes[id]? = some leaf)
    (blind : n = 0 ∨ e.looksBack = false) : g.Fresh n t t' slots next id := by
  refine ⟨fun _ after => .of_rule fun depth below depth' p valid s s' abreast => ?_⟩
  rw [visitNode_leaf _ single here, visitNode_leaf _ single here,
    leafEnd_shift displaced single here blind abreast p valid]
  refine .bind fun found found' ended ended' => ?_
  rw [ended] at ended'
  obtain rfl := Except.ok.inj ended'
  cases found with
  | none => exact .failure abreast.budget
  | some q =>
    exact after depth (Nat.le_of_lt below) depth' q ((leafEnd_reaches ended).boundary valid) s s'
      abreast

theorem sequence {children : List NodeId} {entry : Nat} (row : g.Fresh n t t' slots next entry)
    (head : children.head?.getD next = entry)
    (here : g.nodes[id]? = some (.sequence children next)) : g.Fresh n t t' slots next id := by
  refine ⟨fun apart after => .of_rule fun depth below depth' p valid s s' abreast => ?_⟩
  simp only [visitNode, node_success.mpr here, bind, Except.bind, head]
  exact row.inStep apart after depth (Nat.le_of_lt below) depth' p valid s s' abreast

section Groups

variable {slot tail : Nat} {ids : List NodeId}

theorem plain (enclosing : g.Enclosing) {capture : Option Nat}
    (ends : g.nodes[tail]? = some (.groupEnd slot capture next))
    (head : g.nodes[id]? = some (.group slot capture ids next))
    (branches : ∀ branch ∈ ids, g.Fresh n t t' ⟨slot + 1, j⟩ tail branch) :
    g.Fresh n t t' ⟨slot, j⟩ next id := by
  refine ⟨fun {m live} apart after => ?_⟩
  have ended : g.InStep n t t' m (live.begin slot) tail := by
    refine .of_rule fun depth below depth' p valid s s' abreast => ?_
    simp only [visitNode, node_success.mpr ends, bind, Except.bind]
    exact groupEnd_inStep (after depth (Nat.le_of_lt below) depth' p valid) abreast
  refine .of_rule fun depth below depth' p valid s s' abreast => ?_
  simp only [visitNode, node_success.mpr head, bind, Except.bind]
  exact group_inStep (attemptWithin_tidy enclosing depth) (attemptWithin_tidy enclosing depth')
    (fun branch member => (branches branch member).inStep apart.inGroup ended depth
      (Nat.le_of_lt below) depth' p valid) abreast

variable {captures : Interval}

theorem committed (ends : g.nodes[tail]? = some (.commit slot))
    (branches : ∀ branch ∈ ids, g.Fresh n t t' ⟨slot + 1, j⟩ tail branch) :
    ∀ branch ∈ ids, g.InStep n t t' m .nothing branch := by
  intro branch member
  have ended : g.InStep n t t' m .nothing tail := .final (.inr ⟨_, rfl⟩) ends
  exact (branches branch member).inStep (.nothing _) ended

theorem atomic (enclosing : g.Enclosing) (ends : g.nodes[tail]? = some (.commit slot))
    (head : g.nodes[id]? = some (.atomic slot ids ⟨captures, ⟨slot + 1, j⟩⟩ next))
    (branches : ∀ branch ∈ ids, g.Fresh n t t' ⟨slot + 1, j⟩ tail branch) :
    g.Fresh n t t' ⟨slot, j⟩ next id := by
  refine ⟨fun apart after => .of_rule fun depth below depth' p valid s s' abreast => ?_⟩
  simp only [visitNode, node_success.mpr head, bind, Except.bind]
  refine atomic_inStep (attemptWithin_tidy enclosing depth) (attemptWithin_tidy enclosing depth')
    (enclosing head rfl) apart.afterFirst (fun branch member => ?_) (fun q reaches => ?_) abreast
  · exact committed ends branches branch member depth (Nat.le_refl _) depth' p valid
  · exact after depth (Nat.le_of_lt below) depth' q (reaches.boundary valid)

theorem lookAhead (enclosing : g.Enclosing) {negative : Bool}
    (ends : g.nodes[tail]? = some (.commit slot))
    (head : g.nodes[id]? =
      some (.lookAhead slot negative ids ⟨captures, ⟨slot + 1, j⟩⟩ next))
    (branches : ∀ branch ∈ ids, g.Fresh n t t' ⟨slot + 1, j⟩ tail branch) :
    g.Fresh n t t' ⟨slot, j⟩ next id := by
  refine ⟨fun apart after => .of_rule fun depth below depth' p valid s s' abreast => ?_⟩
  simp only [visitNode, node_success.mpr head, bind, Except.bind]
  refine lookAhead_inStep (attemptWithin_tidy enclosing depth) (attemptWithin_tidy enclosing depth')
    (enclosing head rfl) apart.afterFirst (fun branch member => ?_) ?_ abreast
  · exact committed ends branches branch member depth (Nat.le_refl _) depth' p valid
  · exact after depth (Nat.le_of_lt below) depth' p valid

end Groups

section Loops

variable {entry min leaf slot tail owner : Nat} {max : Option Nat} {greedy : Bool}

theorem leafLoop (enclosing : g.Enclosing) (displaced : t.Displaced n t') {body : Expr}
    {end' : Nat} {node : Node} (single : body.leafNode? end' = some node)
    (below : g.nodes[leaf]? = some node) (blind : n = 0 ∨ body.looksBack = false)
    (here : g.nodes[id]? = some (.leafLoop leaf min max greedy next)) :
    g.Fresh n t t' slots next id := by
  refine ⟨fun apart after => .of_rule fun depth less depth' p valid s s' abreast => ?_⟩
  simp only [visitNode, node_success.mpr here, bind, Except.bind]
  have shift := leafEnd_shift displaced single below blind abreast
  have further (q : Nat) (reaches : t.Reaches p q) :=
    after depth (Nat.le_of_lt less) depth' q (reaches.boundary valid)
  split
  · exact leafLoopGreedy_inStep (attemptWithin_tidy enclosing depth)
      (attemptWithin_tidy enclosing depth') displaced shift leafEnd_reaches valid further abreast
  · rw [iterationsWithin_shift displaced]
    exact leafLoopReluctant_inStep (attemptWithin_tidy enclosing depth)
      (attemptWithin_tidy enclosing depth') shift leafEnd_reaches valid further abreast

theorem loopTail (enclosing : g.Enclosing)
    (loops : g.nodes[owner]? = some (.loop ⟨slot, entry, min, max, greedy, next⟩))
    (ends : g.nodes[tail]? = some (.loopTail owner))
    (inside : g.Fresh n t t' ⟨slot + 1, j⟩ tail entry)
    (apart : live.Apart ⟨slot, j⟩) (after : g.InStep n t t' m live next) :
    g.InStep n t t' m (live.loop slot) tail := by
  -- On how many visits may be open, for the tail is visited again from the body.
  induction m using Nat.strongRecOn with
  | ind m ih =>
    refine .of_rule fun depth below depth' p valid s s' abreast => ?_
    simp only [visitNode, node_success.mpr ends, loopAt_of_node loops, bind, Except.bind]
    have body : g.InStep n t t' depth (live.loop slot) entry :=
      inside.inStep apart.inLoop (ih depth below (after.mono (Nat.le_of_lt below)))
    exact loopTail_inStep (attemptWithin_tidy enclosing depth) (attemptWithin_tidy enclosing depth')
      (body depth (Nat.le_refl _) depth' p valid) (after depth (Nat.le_of_lt below) depth' p valid)
      abreast

theorem loop (enclosing : g.Enclosing)
    (loops : g.nodes[owner]? = some (.loop ⟨slot, entry, min, max, greedy, next⟩))
    (ends : g.nodes[tail]? = some (.loopTail owner))
    (inside : g.Fresh n t t' ⟨slot + 1, j⟩ tail entry) :
    g.Fresh n t t' ⟨slot, j⟩ next owner := by
  refine ⟨fun apart after => .of_rule fun depth below depth' p valid s s' abreast => ?_⟩
  simp only [visitNode, node_success.mpr loops, bind, Except.bind]
  have body := inside.inStep apart.inLoop (loopTail enclosing loops ends inside apart after)
  exact loop_inStep (attemptWithin_tidy enclosing depth) (attemptWithin_tidy enclosing depth')
    (body depth (Nat.le_of_lt below) depth' p valid)
    (after depth (Nat.le_of_lt below) depth' p valid) abreast

end Loops

end Graph.Fresh

namespace Expr

variable {holds : Expr → Bool} {e : Expr}

theorem every_branches {kind : GroupKind} {branches : List Expr}
    (bracket : e.asGroup? = some (kind, branches))
    (loops : ∀ body min max, holds (repetition body min max .greedy) = true)
    (all : e.every holds = true) : everyAll holds branches = true := by
  obtain ⟨rfl, rfl⟩ | rfl | ⟨body, rfl, rfl⟩ | ⟨body, min, max, rfl, bounded, rfl, rfl⟩ :=
    asGroup?_cases bracket
  · exact (every_alternation.mp all).2
  · exact (every_alternation.mp (every_group.mp all).2).2
  · exact every_cons.mpr ⟨(every_group.mp all).2, rfl⟩
  · have inside : body.every holds = true := (every_repetition.mp all).2
    exact every_cons.mpr ⟨every_repetition.mpr ⟨loops body min max, inside⟩, rfl⟩

theorem looksBack_of_every (blind : e.every (!·.looksBack) = true) : e.looksBack = false := by
  simpa using every_self blind

end Expr

section Lowering

variable {g : Graph} {n : Nat} {t t' : Text}

mutual
/-- A lowered expression reads no slot before it has written it. The induction is on how it was
lowered. -/
theorem Lowered.fresh (enclosing : g.Enclosing) (displaced : t.Displaced n t')
    {e next cap a id b} : Lowered g.nodes e next cap a id b →
      (n = 0 ∨ e.every (!·.looksBack) = true) → g.Fresh n t t' ⟨a.slot, b.slot⟩ next id
  | .nothing _ => by
    intro _
    exact .nothing
  | .leaf single here => by
    intro blind
    exact .leaf displaced single here (blind.imp_right Expr.looksBack_of_every)
  | .row lowered _ => by
    intro blind
    have items := blind.imp_right fun all => (Expr.every_concat.mp all).2
    exact lowered.fresh enclosing displaced items
  | .sequence lowered _ here => by
    intro blind
    have items := blind.imp_right fun all => (Expr.every_concat.mp all).2
    have row := lowered.fresh enclosing displaced items
    exact .sequence row lowered.head here
  | @Lowered.group _ _ kind _ _ _ _ _ _ bracket tail lowered head => by
    intro blind
    have branches := lowered.fresh enclosing displaced
      (blind.imp_right (Expr.every_branches bracket fun _ _ _ => rfl))
    cases kind with
    | capture | nonCapture => exact .plain enclosing tail head branches
    | atomic => exact .atomic enclosing tail head branches
    | lookAhead | negativeLookAhead => exact .lookAhead enclosing tail head branches
  | .leafLoop _ _ _ single leaf here => by
    intro blind
    have body := blind.imp_right fun all =>
      Expr.looksBack_of_every (Expr.every_repetition.mp all).2
    exact .leafLoop enclosing displaced single leaf body here
  | .loop _ _ _ here tail lowered => by
    intro blind
    have body := blind.imp_right fun all => (Expr.every_repetition.mp all).2
    have inside := lowered.fresh enclosing displaced body
    exact .loop enclosing here tail inside
theorem LoweredRow.fresh (enclosing : g.Enclosing) (displaced : t.Displaced n t')
    {items next cap a children id b} : LoweredRow g.nodes items next cap a children id b →
      (n = 0 ∨ Expr.everyAll (!·.looksBack) items = true) → g.Fresh n t t' ⟨a.slot, b.slot⟩ next id
  | .nil => by
    intro _
    exact .nothing
  | .cons later first => by
    intro blind
    have before := later.entered
    have entered := first.entered
    have here := first.fresh enclosing displaced
      (blind.imp_right fun all => (Expr.every_cons.mp all).1)
    have others := later.fresh enclosing displaced
      (blind.imp_right fun all => (Expr.every_cons.mp all).2)
    have later' := others.widen (Nat.le_refl _) entered.2.1
    have first' := here.widen before.2.1 (Nat.le_refl _)
    exact later'.trans first'
theorem LoweredBranches.fresh (enclosing : g.Enclosing) (displaced : t.Displaced n t')
    {branches next cap a ids b} : LoweredBranches g.nodes branches next cap a ids b →
      (n = 0 ∨ Expr.everyAll (!·.looksBack) branches = true) →
        ∀ id ∈ ids, g.Fresh n t t' ⟨a.slot, b.slot⟩ next id
  | .nil => by
    intro _
    simp
  | .cons first later => by
    intro blind
    have before := first.entered
    have entered := later.entered
    have here := first.fresh enclosing displaced
      (blind.imp_right fun all => (Expr.every_cons.mp all).1)
    have others := later.fresh enclosing displaced
      (blind.imp_right fun all => (Expr.every_cons.mp all).2)
    refine List.forall_mem_cons.mpr ⟨here.widen (Nat.le_refl _) entered.2.1, ?_⟩
    intro id member
    exact (others id member).widen before.2.1 (Nat.le_refl _)
end

end Lowering

theorem map_zero_add (file : Array (Option Nat)) : file.map (·.map (0 + ·)) = file := by
  simp

namespace Expr

theorem Compiled.attempt_inStep {e : Expr} {g : Graph} (compiled : e.Compiled g) {n : Nat}
    {t t' : Text} (displaced : t.Displaced n t') (blind : n = 0 ∨ e.every (!·.looksBack) = true)
    {p : Nat} (valid : t.isBoundary p = true) :
    InStepAt n .nothing (g.attempt t) (g.attempt t') g.entry p := by
  have fresh := compiled.lowered.fresh compiled.enclosing displaced blind
  have ended : g.InStep n t t' (g.nestingBound t) .nothing Node.succeedId :=
    .final (.inl rfl) compiled.succeed
  exact fresh.inStep (.nothing _) ended _ (Nat.le_refl _) _ p valid

/-- What the slots hold when matching begins is of no account: two states that differ in nothing
else lead to the same answer, and what they hold of captures and limits is the same afterwards. -/
theorem stale_slots_ignored {e : Expr} {g : Graph} (ok : e.compile = .ok g) {t : Text} {p : Nat}
    (valid : t.isBoundary p = true) {s s' u u' : MatchState} {r r' : Option Nat}
    (starts : s'.regs.starts = s.regs.starts) (ends : s'.regs.ends = s.regs.ends)
    (origin : s'.origin = s.origin) (budget : s'.budget = s.budget)
    (answer : g.attempt t g.entry p s = .ok (r, u))
    (answer' : g.attempt t g.entry p s' = .ok (r', u')) :
    r' = r ∧ u'.regs.starts = u.regs.starts ∧ u'.regs.ends = u.regs.ends ∧
      u'.budget = u.budget := by
  have compiled := compile_compiled ok
  have abreast : s.Abreast 0 .nothing s' :=
    ⟨⟨fun _ => False.elim, fun _ => False.elim, by rw [map_zero_add, starts],
      by rw [map_zero_add, ends], origin.trans (Nat.zero_add _).symm⟩, budget⟩
  have same := compiled.attempt_inStep (.self t) (.inl rfl) valid s s' abreast
  rw [Nat.zero_add] at same
  obtain ⟨stop, spent⟩ := (same _ _ answer answer').stop
  obtain rfl : r' = r := by simpa using stop
  refine ⟨rfl, ?_⟩
  cases r' with
  | none =>
    have restored := (attemptWithin_tidy compiled.enclosing _ answer).restored rfl
    have restored' := (attemptWithin_tidy compiled.enclosing _ answer').restored rfl
    exact ⟨by rw [restored, restored', starts], by rw [restored, restored', ends], spent⟩
  | some q =>
    have after := (same _ _ answer answer').2.regs
    exact ⟨by rw [after.starts, map_zero_add], by rw [after.ends, map_zero_add], spent⟩

theorem stale_slots_ignored_leftovers : ∃ g s s' u u', (concat [repetition (group .atomic
      (group .capture (alternation [literal "a" false, literal "b" false]))) 0 none .greedy,
        backReference 1 false]).compile = .ok g ∧
    s = .ofGraph g {} ∧
    s' = ⟨{ s.regs with consumed := #[some 2, some 0, some 7], counts := #[9, 1, 4] }, s.budget⟩ ∧
    g.attempt ⟨"abb", by decide⟩ g.entry 0 s = .ok (some 3, u) ∧ u.regs.counts = #[2, 0, 0] ∧
    g.attempt ⟨"abb", by decide⟩ g.entry 0 s' = .ok (some 3, u') ∧ u'.regs.counts = #[2, 1, 4] ∧
    u'.regs.starts = u.regs.starts ∧ u'.regs.ends = u.regs.ends ∧ u'.budget = u.budget := by
  let g : Graph := ⟨#[.succeed, .backReference 1 false 0, .loop ⟨0, 9, 0, none, true, 1⟩,
    .loopTail 2, .commit 1, .groupEnd 2 (some 1) 4, .literal "a" false 5, .literal "b" false 5,
    .group 2 (some 1) [6, 7] 4, .atomic 1 [8] ⟨⟨1, 2⟩, ⟨2, 3⟩⟩ 3, .sequence [2, 1] 0],
    10, 1, 3, none⟩
  let s : MatchState := .ofGraph g {}
  let s' : MatchState :=
    ⟨{ s.regs with consumed := #[some 2, some 0, some 7], counts := #[9, 1, 4] }, s.budget⟩
  let u : MatchState := ⟨⟨#[some 1, some 1, some 1], #[2, 0, 0], #[none, some 1], #[none, some 2],
    0⟩, { options := {}, retriesInMatch := 15, retriesInSearch := 15 }⟩
  let u' : MatchState := { u with regs.counts := #[2, 1, 4] }
  have ok : (concat [repetition (group .atomic (group .capture (alternation [literal "a" false,
      literal "b" false]))) 0 none .greedy, backReference 1 false]).compile = .ok g := rfl
  have answer : g.attempt ⟨"abb", by decide⟩ g.entry 0 s = .ok (some 3, u) := by decide +kernel
  have answer' : g.attempt ⟨"abb", by decide⟩ g.entry 0 s' = .ok (some 3, u') := by decide +kernel
  have captured : s'.regs.starts = s.regs.starts ∧ s'.regs.ends = s.regs.ends := ⟨rfl, rfl⟩
  have limits : s'.origin = s.origin ∧ s'.budget = s.budget := ⟨rfl, rfl⟩
  have valid : Text.isBoundary ⟨"abb", by decide⟩ 0 = true := by decide
  have same := stale_slots_ignored ok valid captured.1 captured.2 limits.1 limits.2 answer answer'
  exact ⟨g, s, s', u, u', ok, rfl, rfl, answer, rfl, answer', rfl, same.2⟩

end Expr

end BacktrackRegex
