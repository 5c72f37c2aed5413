import BacktrackRegex.Proofs.Stretches
import BacktrackRegex.Proofs.Yields

/-! Lowering keeps the meaning. A visit of the node where an expression is entered yields the first
of the expression's ways from which the rest of the match goes on, if the visit of the node after
the expression yields how the rest goes on from a way. -/
namespace BacktrackRegex

namespace Expr

theorem check_cons {captures : Nat} {e : Expr} {es : List Expr}
    (checked : checkAll captures (e :: es) = .ok ()) :
    e.check captures = .ok () ∧ checkAll captures es = .ok () := by
  unfold checkAll at checked
  cases first : e.check captures with
  | error defect => simp [first, bind, Except.bind] at checked
  | ok _ => exact ⟨rfl, by simpa [first, bind, Except.bind] using checked⟩

theorem check_body {captures min : Nat} {max : Option Nat} {kind : RepeatKind} {body : Expr}
    (checked : (repetition body min max kind).check captures = .ok ()) :
    body.check captures = .ok () := by
  unfold check at checked
  split at checked
  · split at checked
    · cases checked
    · exact checked
  · exact checked

theorem check_alternation {captures : Nat} {branches : List Expr}
    (checked : (alternation branches).check captures = .ok ()) :
    checkAll captures branches = .ok () := by
  unfold check at checked
  split at checked
  · cases checked
  · exact checked

theorem check_branches {captures : Nat} {e : Expr} {kind : GroupKind} {branches : List Expr}
    (bracket : e.asGroup? = some (kind, branches)) (checked : e.check captures = .ok ()) :
    checkAll captures branches = .ok () := by
  have single {e : Expr} (checked : e.check captures = .ok ()) :
      checkAll captures [e] = .ok () := by
    simp [checkAll, checked, bind, Except.bind, pure, Except.pure]
  obtain ⟨rfl, rfl⟩ | rfl | ⟨body, rfl, rfl⟩ | ⟨body, min, max, rfl, bounded, rfl, rfl⟩ :=
    asGroup?_cases bracket
  · exact check_alternation checked
  · exact check_alternation (by simpa only [check] using checked)
  · exact single (by simpa only [check] using checked)
  · exact single (by simpa only [check] using checked)

theorem ways_of_isVoid {t : Text} {origin cap p : Nat} {held : Holdings} {e : Expr}
    (void : e.isVoid = true) (valid : t.isBoundary p = true) :
    e.ways t origin cap p held = [(p, held)] := by
  cases e with
  | empty => simp [ways]
  | literal text ignoreCase =>
    obtain rfl : text = "" := by simpa [isVoid] using void
    obtain ⟨_, taken, _⟩ := Text.boundary_ok valid
    have nothing : t.hasBytes "" p = true := Text.hasBytes_iff.mpr (by simp)
    have found : literalEnd "" ignoreCase t p = .ok (some p) := by
      cases ignoreCase <;>
        simp [literalEnd, taken, bind, Except.bind, pure, Except.pure, foldedEnd, nothing]
    simp [ways, found, leafWays]
  | repetition body min max kind =>
    have never : max = some 0 := by simpa [isVoid] using void
    simp [ways, never]
  | _ => cases void

end Expr

variable {g : Graph} {t : Text} {origin : Nat}

/-- From boundaries where `Φ` holds, a visit of the node `id` yields what `rest` makes of the way so
far. -/
def Realizes (g : Graph) (t : Text) (origin : Nat) (Φ : Nat → Registers → Prop) (id : Nat)
    (rest : Way → Option Way) : Prop :=
  ∀ depth p r, t.isBoundary p = true → Φ p r →
    Yields g t origin (g.attemptWithin t depth id p) r (rest (p, r.held))

def Steady (t : Text) (Φ : Nat → Registers → Prop) (a b : Mark) : Prop :=
  ∀ {p q r r'}, Φ p r → t.Reaches p q → (∀ k, k < a.slot ∨ b.slot ≤ k →
    r'.consumed[k]? = r.consumed[k]? ∧ r'.counts[k]? = r.counts[k]?) → Φ q r'

theorem Steady.part {Φ : Nat → Registers → Prop} {a b c d : Mark} (steady : Steady t Φ a b)
    (low : a.slot ≤ c.slot) (high : d.slot ≤ b.slot) : Steady t Φ c d := by
  intro p q r r' holds reaches same
  refine steady holds reaches fun k outside => same k ?_
  omega

theorem Realizes.of_rule {Φ : Nat → Registers → Prop} {id : Nat} {rest : Way → Option Way}
    (rule : ∀ depth p r, t.isBoundary p = true → Φ p r →
      Yields g t origin (g.visitNode t (g.attemptWithin t depth) id p) r (rest (p, r.held))) :
    Realizes g t origin Φ id rest := by
  intro depth p r valid holds s same ready
  cases depth with
  | zero => exact rfl
  | succ depth =>
    obtain ⟨s', entered, kept, ready'⟩ := ready.enter
    have inner := rule depth p r valid holds s' (kept.trans same) ready'
    unfold Graph.attemptWithin
    rw [entered]
    dsimp only
    cases visited : g.visitNode t (g.attemptWithin t depth) id p s' with
    | error e => rw [visited] at inner; exact inner
    | ok a => rw [visited] at inner; exact inner

theorem leafEnd_ok {e : Expr} {next id p : Nat} {n : Node} {s : MatchState} (cap : Nat)
    (single : e.leafNode? next = some n) (checked : e.check g.captures = .ok ())
    (node : g.nodes[id]? = some n) (valid : t.isBoundary p = true) (ready : Ready g t origin s) :
    ∃ found, g.leafEnd t s id p = .ok found ∧
      e.ways t origin cap p s.regs.held = Expr.leafWays s.regs.held (.ok found) := by
  have here := Graph.node_success.mpr node
  cases e with
  | literal text ignoreCase =>
    obtain ⟨found, same⟩ : ∃ found, literalEnd text ignoreCase t p = .ok found :=
      literalEnd_ok valid
    rw [Expr.leafNode?_literal] at single
    split at single <;> cases single
    exact ⟨found, by simp only [Graph.leafEnd, here, bind, Except.bind, same], by
      rw [Expr.ways, same]⟩
  | charClass members =>
    obtain ⟨found, same⟩ := CharClass.endAt_ok (k := members) valid
    cases single
    exact ⟨found, by simp only [Graph.leafEnd, here, bind, Except.bind, same], by
      rw [Expr.ways, same]⟩
  | anchor condition =>
    obtain ⟨holds, same⟩ : ∃ holds, condition.holdsAt t p origin = .ok holds :=
      Anchor.holdsAt_ok valid
    cases single
    refine ⟨if holds then some p else none, ?_, by rw [Expr.ways, same]; rfl⟩
    simp only [Graph.leafEnd, here, bind, Except.bind, MatchState.origin, ready.fitted.origin, same]
    rfl
  | backReference k ignoreCase =>
    have inside : k ≤ g.captures := by
      unfold Expr.check at checked
      split at checked
      · cases checked
      · omega
    have group : s.group k = .ok (s.regs.held[k]?.join) := Registers.group_eq
      (by rw [ready.fitted.starts]; omega) (by rw [ready.fitted.ends]; omega)
    have pieces : ∀ span, s.regs.held[k]?.join = some span → t.Piece span := fun span found =>
      ready.valid span (List.mem_of_getElem? (Option.join_eq_some_iff.mp found))
    obtain ⟨found, same⟩ : ∃ found,
        backReferenceEnd s.regs.held[k]?.join ignoreCase t p = .ok found :=
      backReferenceEnd_ok valid pieces
    cases single
    exact ⟨found, by simp only [Graph.leafEnd, here, group, bind, Except.bind, same], by
      rw [Expr.ways, same]⟩
  | _ => cases single

theorem leaf_yields {visit : Visit} {e : Expr} {next id cap p : Nat} {n : Node} {r : Registers}
    {rest : Way → Option Way} (single : e.leafNode? next = some n)
    (checked : e.check g.captures = .ok ()) (node : g.nodes[id]? = some n)
    (valid : t.isBoundary p = true) (after : ∀ q, t.Reaches p q →
      Yields g t origin (visit next q) r (rest (q, r.held))) :
    Yields g t origin (g.visitNode t visit id p) r
      ((e.ways t origin cap p r.held).findSome? rest) := by
  rintro s rfl ready
  obtain ⟨found, ended, ways⟩ := leafEnd_ok cap single checked node valid ready
  rw [Graph.visitNode_leaf visit single node, ended, ways, ok_bind]
  cases found with
  | none => rfl
  | some q =>
    have there := after q (Graph.leafEnd_reaches ended) s rfl ready
    simpa [Expr.leafWays, findSome?_cons_or] using there

def BranchesRealize (g : Graph) (t : Text) (origin : Nat) (a b : Mark) (tail : Nat)
    (ids : List Nat) (ways : Nat → Holdings → List Way) : Prop :=
  ∀ {Φ rest}, Steady t Φ a b → Realizes g t origin Φ tail rest →
    ∀ depth p r, t.isBoundary p = true → Φ p r →
      Yields g t origin (firstBranch (g.attemptWithin t depth) ids p) r
        ((ways p r.held).findSome? rest)

section Groups

variable {Φ : Nat → Registers → Prop} {rest : Way → Option Way} {a b : Mark}
  {id cap next : Nat} {ids : List Nat} {ways : Nat → Holdings → List Way}

theorem Steady.begin (steady : Steady t Φ a b) (le : a.slot < b.slot) {p : Nat} {r : Registers}
    (holds : Φ p r) (begun : Option Nat) : Φ p (r.putConsumed a.slot begun) := by
  refine steady holds (.refl t p) fun k outside => ?_
  have other : a.slot ≠ k := by omega
  exact ⟨Array.getElem?_setIfInBounds_ne other, rfl⟩

theorem capture_realizes (enclosing : g.Enclosing) (bound : a.slot < g.slots)
    (own : a.slot < b.slot) (inside : cap ≤ g.captures)
    (head : g.nodes[id]? = some (.group a.slot (some cap) ids next))
    (tail : g.nodes[a.node]? = some (.groupEnd a.slot (some cap) next))
    (branches : BranchesRealize g t origin ⟨a.node + 1, a.slot + 1⟩ b a.node ids ways)
    (steady : Steady t Φ a b) (after : Realizes g t origin Φ next rest) :
    Realizes g t origin Φ id fun (p, held) =>
      (GroupKind.capture.ways cap p held (ways p held)).findSome? rest := by
  refine .of_rule fun depth p r valid holds => ?_
  -- The tail finds in the slot where this group began.
  have ended : Realizes g t origin
      (fun q r => t.Reaches p q ∧ Φ q r ∧ r.consumed[a.slot]? = some (some p)) a.node
      fun (q, held) => rest (q, held.set cap (some ⟨p, q⟩)) := by
    refine .of_rule fun depth q r' valid' ⟨reaches, holds', begun⟩ => ?_
    intro s same ready
    simp only [Graph.visitNode, Graph.node_success.mpr tail, bind, Except.bind]
    refine Yields.groupEnd_some (attemptWithin_tidy enclosing depth) inside begun valid reaches
      ?_ s same ready
    rw [← Registers.held_putGroup]
    exact after depth q _ valid' (steady holds' (.refl t q) fun _ _ => ⟨rfl, rfl⟩)
  intro s same ready
  have sized : a.slot < r.consumed.size := same ▸ ready.fitted.consumed ▸ bound
  simp only [Graph.visitNode, Graph.node_success.mpr head, bind, Except.bind]
  refine Yields.group (attemptWithin_tidy enclosing depth) bound ?_ s same ready
  rw [GroupKind.ways, List.findSome?_map]
  refine branches ?_ ended depth p _ valid ⟨.refl t p, steady.begin own holds (some p), ?_⟩
  · intro q q' r r' ⟨reaches, holds, begun⟩ further same
    refine ⟨reaches.trans further, steady holds further fun k outside => same k ?_, ?_⟩
    · dsimp only
      omega
    · rw [(same a.slot (.inl (Nat.lt_succ_self _))).1, begun]
  · simp [Registers.putConsumed, sized]

theorem nonCapture_realizes (enclosing : g.Enclosing) (bound : a.slot < g.slots)
    (own : a.slot < b.slot) (head : g.nodes[id]? = some (.group a.slot none ids next))
    (tail : g.nodes[a.node]? = some (.groupEnd a.slot none next))
    (branches : BranchesRealize g t origin ⟨a.node + 1, a.slot + 1⟩ b a.node ids ways)
    (steady : Steady t Φ a b) (after : Realizes g t origin Φ next rest) :
    Realizes g t origin Φ id fun (p, held) =>
      (GroupKind.nonCapture.ways cap p held (ways p held)).findSome? rest := by
  refine .of_rule fun depth p r valid holds s same ready => ?_
  have ended : Realizes g t origin Φ a.node rest := by
    refine .of_rule fun depth q r' valid' holds' s same ready => ?_
    simp only [Graph.visitNode, Graph.node_success.mpr tail, bind, Except.bind]
    exact after depth q r' valid' holds' s same ready
  simp only [Graph.visitNode, Graph.node_success.mpr head, bind, Except.bind]
  exact Yields.group (attemptWithin_tidy enclosing depth) bound
    (branches (steady.part (Nat.le_succ _) (Nat.le_refl _)) ended depth p _ valid
      (steady.begin own holds (some p))) s same ready

theorem end_realizes {n : Node} (node : g.nodes[id]? = some n)
    (final : n = .succeed ∨ ∃ slot, n = .commit slot) :
    Realizes g t origin (fun _ _ => True) id some := by
  refine .of_rule fun depth p r valid holds s same ready => ?_
  obtain rfl | ⟨slot, rfl⟩ := final <;>
    simp only [Graph.visitNode, Graph.node_success.mpr node, bind, Except.bind] <;>
    exact same ▸ rfl

theorem Steady.committed (steady : Steady t Φ a b) (own : a.slot < b.slot) {p q : Nat}
    {r r' : Registers} {captures : Interval} (holds : Φ p r) (begun : Option Nat)
    (reaches : t.Reaches p q) (same : (r.putConsumed a.slot begun).AgreeOutside
      ⟨captures, ⟨a.slot + 1, b.slot⟩⟩ r') : Φ q r' := by
  refine steady (steady.begin own holds begun) reaches fun k outside => ?_
  have out : Interval.contains ⟨a.slot + 1, b.slot⟩ k = false := by
    rw [← Bool.not_eq_true, Interval.contains_iff]
    dsimp only
    omega
  exact ⟨same.consumed k out, same.counts k out⟩

theorem atomic_realizes (enclosing : g.Enclosing) (bound : b.slot ≤ g.slots)
    (own : a.slot < b.slot) {captures : Interval} (inside : captures.stop ≤ g.captures + 1)
    (head : g.nodes[id]? =
      some (.atomic a.slot ids ⟨captures, ⟨a.slot + 1, b.slot⟩⟩ next))
    (tail : g.nodes[a.node]? = some (.commit a.slot))
    (branches : BranchesRealize g t origin ⟨a.node + 1, a.slot + 1⟩ b a.node ids ways)
    (follow : ∀ {p held way}, way ∈ ways p held → Follows t p held way)
    (steady : Steady t Φ a b) (after : Realizes g t origin Φ next rest) :
    Realizes g t origin Φ id fun (p, held) =>
      (GroupKind.atomic.ways cap p held (ways p held)).findSome? rest := by
  refine .of_rule fun depth p r valid holds s same ready => ?_
  simp only [Graph.visitNode, Graph.node_success.mpr head, bind, Except.bind]
  have inner := branches (fun _ _ _ => trivial) (end_realizes tail (.inr ⟨_, rfl⟩)) depth p
    (r.putConsumed a.slot (some p)) valid trivial
  rw [findSome?_some] at inner
  rw [GroupKind.ways, findSome?_take_one]
  refine Yields.atomic (attemptWithin_tidy enclosing depth) (enclosing head rfl) (by omega) inside
    bound (fun held way first => (follow (List.mem_of_head? first)).valid valid held) inner
    (fun missed => ?_) (fun q r' first reaches same => ?_) s same ready
  · rw [missed]
    rfl
  · have there := after depth q r' (reaches.boundary valid)
      (steady.committed own holds (some p) reaches same)
    exact first ▸ there

theorem lookAhead_realizes (enclosing : g.Enclosing) (bound : b.slot ≤ g.slots)
    (own : a.slot < b.slot) {captures : Interval} (inside : captures.stop ≤ g.captures + 1)
    {negative : Bool} (head : g.nodes[id]? =
      some (.lookAhead a.slot negative ids ⟨captures, ⟨a.slot + 1, b.slot⟩⟩ next))
    (tail : g.nodes[a.node]? = some (.commit a.slot))
    (branches : BranchesRealize g t origin ⟨a.node + 1, a.slot + 1⟩ b a.node ids ways)
    (follow : ∀ {p held way}, way ∈ ways p held → Follows t p held way)
    (steady : Steady t Φ a b) (after : Realizes g t origin Φ next rest) :
    Realizes g t origin Φ id fun (p, held) =>
      ((if negative then GroupKind.negativeLookAhead else .lookAhead).ways cap p held
        (ways p held)).findSome? rest := by
  refine .of_rule fun depth p r valid holds s same ready => ?_
  simp only [Graph.visitNode, Graph.node_success.mpr head, bind, Except.bind]
  have inner := branches (fun _ _ _ => trivial) (end_realizes tail (.inr ⟨_, rfl⟩)) depth p
    (r.putConsumed a.slot (some p)) valid trivial
  rw [findSome?_some] at inner
  have whole : ((if negative then GroupKind.negativeLookAhead else .lookAhead).ways cap p r.held
      (ways p r.held)).findSome? rest = if (ways p r.held).head?.isSome != negative then
        rest (p, (ways p r.held).head?.elim r.held (·.2)) else none := by
    cases negative <;> cases ways p r.held <;> simp [GroupKind.ways, findSome?_cons_or]
  rw [whole]
  refine Yields.lookAhead (attemptWithin_tidy enclosing depth) (enclosing head rfl) (by omega)
    inside bound (fun held way first => (follow (List.mem_of_head? first)).valid valid held) inner
    (fun _ r' held same => ?_) s same ready
  exact held ▸ after depth p r' valid (steady.committed own holds (some p) (.refl t p) same)

end Groups

section Loops

variable {Φ : Nat → Registers → Prop} {rest : Way → Option Way} {a b : Mark}
  {body : Nat → Holdings → List Way}

def afterIteration (body : Nat → Holdings → List Way) (greedy : Bool) (min : Nat)
    (max : Option Nat) (steps n start : Nat) (rest : Way → Option Way) (way : Way) : Option Way :=
  if way.1 = start then rest way
  else (iterations body greedy min max steps (n + 1) way.1 way.2).findSome? rest

theorem iterations_findSome? (body : Nat → Holdings → List Way) (greedy : Bool) (min : Nat)
    (max : Option Nat) (steps n p : Nat) (held : Holdings) (rest : Way → Option Way) :
    (iterations body greedy min max (steps + 1) n p held).findSome? rest =
      let again? := if belowMax n max then
        (body p held).findSome? (afterIteration body greedy min max steps n p rest) else none
      let stop? := if min ≤ n then rest (p, held) else none
      if greedy then again?.or stop? else stop?.or again? := by
  have again : (if max.all (n < ·) then (body p held).flatMap fun (q, held) =>
        if q = p then [(q, held)] else iterations body greedy min max steps (n + 1) q held
      else []).findSome? rest = if belowMax n max then
        (body p held).findSome? (afterIteration body greedy min max steps n p rest) else none := by
    unfold belowMax
    split
    · rw [findSome?_flatMap]
      congr 1
      funext ⟨q, held⟩
      dsimp only [afterIteration]
      split <;> simp
    · rfl
  have stop : (if min ≤ n then [(p, held)] else []).findSome? rest =
      if min ≤ n then rest (p, held) else none := by
    split <;> simp
  unfold iterations
  dsimp only
  split <;> rw [List.findSome?_append, again, stop]

def InIteration (t : Text) (Φ : Nat → Registers → Prop) (slot start n q : Nat) (r : Registers) :
    Prop :=
  t.Reaches start q ∧ Φ q r ∧ r.consumed[slot]? = some (some start) ∧ r.counts[slot]? = some n

theorem InIteration.steady (steady : Steady t Φ a b) (start n : Nat) {c : Mark}
    (within : c.slot = a.slot + 1) : Steady t (InIteration t Φ a.slot start n) c b := by
  intro p q r r' ⟨reaches, holds, begun, count⟩ further same
  have own := same a.slot (.inl (by omega))
  exact ⟨reaches.trans further, steady holds further fun k outside => same k (by omega),
    own.1.trans begun, own.2.trans count⟩

theorem repeatStep_realizes (enclosing : g.Enclosing) {entry min next tail : Nat}
    {max : Option Nat} {greedy : Bool} (bound : a.slot < g.slots) (own : a.slot < b.slot)
    (owner : g.nodes[a.node]? = some (.loop ⟨a.slot, entry, min, max, greedy, next⟩))
    (node : g.nodes[tail]? = some (.loopTail a.node)) (steady : Steady t Φ a b)
    (after : Realizes g t origin Φ next rest)
    (inner : ∀ {Ψ rest'}, Steady t Ψ ⟨a.node + 2, a.slot + 1⟩ b → Realizes g t origin Ψ tail rest' →
      Realizes g t origin Ψ entry fun (p, held) => (body p held).findSome? rest')
    {depth steps n p : Nat} {r : Registers} (valid : t.isBoundary p = true) (holds : Φ p r)
    (enough : t.size - p < steps) (few : n ≤ p) (count : r.counts[a.slot]? = some n) :
    Yields g t origin
      (Attempt.repeatStep (g.attemptWithin t depth) ⟨a.slot, entry, min, max, greedy, next⟩ p) r
      ((iterations body greedy min max steps n p r.held).findSome? rest) := by
  -- On the text that is left: the next step is made where an iteration has consumed something.
  induction left : t.size - p using Nat.strongRecOn generalizing depth steps n p r with
  | ind left ih =>
  obtain ⟨steps, rfl⟩ : ∃ more, steps = more + 1 := ⟨steps - 1, by omega⟩
  have again : Realizes g t origin (InIteration t Φ a.slot p n) tail
      (afterIteration body greedy min max steps n p rest) := by
    refine .of_rule fun depth q r' valid' ⟨reaches, holds', begun, count'⟩ s same ready => ?_
    simp only [Graph.visitNode, Graph.node_success.mpr node, Graph.loopAt_of_node owner, bind,
      Except.bind]
    unfold afterIteration
    split
    · next here =>
      obtain rfl : q = p := here
      exact Yields.loopTail_here begun (after depth q r' valid' holds') s same ready
    · next moved =>
      have later : p < q := Nat.lt_of_le_of_ne reaches.le (Ne.symm moved)
      have inside := reaches.le_size (Ne.symm moved)
      have small := t.size_lt
      change t.size < Word.modulus at small
      have counts : Word.next n = n + 1 := Word.next_eq_add_one (by
        simp only [Word.modulus, Word.max] at small ⊢
        omega)
      have sized := (Array.getElem?_eq_some_iff.mp count').1
      refine Yields.loopTail_later (attemptWithin_tidy enclosing depth) bound begun (Ne.symm moved)
        count' (ih (t.size - q) (by omega) valid' ?_ (by omega) (by omega) ?_ rfl) s same ready
      · refine steady holds' (.refl t q) fun k outside => ⟨rfl, ?_⟩
        exact Array.getElem?_setIfInBounds_ne (by dsimp only; omega)
      · simp [Registers.putCount, sized, counts]
  have body : a.slot < r.consumed.size → InIteration t Φ a.slot p n p
      (r.putConsumed a.slot (some p)) := fun sized =>
    ⟨.refl t p, steady.begin own holds (some p), by simp [Registers.putConsumed, sized], count⟩
  rw [iterations_findSome?]
  intro s same ready
  have sized : a.slot < r.consumed.size := same ▸ ready.fitted.consumed ▸ bound
  exact Yields.repeatStep (attemptWithin_tidy enclosing depth) bound count
    (fun _ => inner (InIteration.steady steady p n rfl) again depth p _ valid (body sized))
    (fun _ => after depth p r valid holds) s same ready

theorem loop_realizes (enclosing : g.Enclosing) {entry min next tail : Nat}
    {max : Option Nat} {greedy : Bool} (bound : a.slot < g.slots) (own : a.slot < b.slot)
    (owner : g.nodes[a.node]? = some (.loop ⟨a.slot, entry, min, max, greedy, next⟩))
    (node : g.nodes[tail]? = some (.loopTail a.node)) (steady : Steady t Φ a b)
    (after : Realizes g t origin Φ next rest)
    (inner : ∀ {Ψ rest'}, Steady t Ψ ⟨a.node + 2, a.slot + 1⟩ b → Realizes g t origin Ψ tail rest' →
      Realizes g t origin Ψ entry fun (p, held) => (body p held).findSome? rest') :
    Realizes g t origin Φ a.node fun (p, held) =>
      (iterations body greedy min max (t.size - p + 1) 0 p held).findSome? rest := by
  refine .of_rule fun depth p r valid holds s same ready => ?_
  simp only [Graph.visitNode, Graph.node_success.mpr owner, bind, Except.bind]
  have counted : a.slot < r.counts.size := same ▸ ready.fitted.counts ▸ bound
  refine Yields.loop (attemptWithin_tidy enclosing depth) bound (repeatStep_realizes enclosing bound
    own owner node steady after inner valid ?_ (Nat.lt_succ_self _) (Nat.zero_le _) ?_) s same ready
  · exact steady holds (.refl t p) fun k outside =>
      ⟨Array.getElem?_setIfInBounds_ne (by dsimp only; omega),
        Array.getElem?_setIfInBounds_ne (by dsimp only; omega)⟩
  · simp [Registers.putConsumed, Registers.putCount, counted]

end Loops

section LeafLoops

theorem simpleLeaf_ends {body : Expr} {after id : Nat} {n : Node} (t : Text) (origin cap : Nat)
    (simple : body.isSimpleLeaf = true)
    (single : body.leafNode? after = some n) (leaf : g.nodes[id]? = some n) (s : MatchState) :
    body.ways t origin cap = (fun p held => Expr.leafWays held (g.leafEnd t s id p)) ∧
      ∀ {p q}, g.leafEnd t s id p = .ok (some q) → p < q := by
  have here := Graph.node_success.mpr leaf
  cases body with
  | literal text ignoreCase =>
    have nonempty : text ≠ "" := by simpa [Expr.isSimpleLeaf] using simple
    rw [Expr.leafNode?_literal, if_neg nonempty] at single
    cases single
    have same : g.leafEnd t s id = literalEnd text ignoreCase t := by
      funext p
      simp only [Graph.leafEnd, here, bind, Except.bind]
    refine ⟨by funext p held; rw [Expr.ways, same], fun {p q} found => ?_⟩
    rw [same] at found
    exact literalEnd_lt nonempty found
  | charClass members =>
    cases single
    have same : g.leafEnd t s id = members.endAt t := by
      funext p
      simp only [Graph.leafEnd, here, bind, Except.bind]
    refine ⟨by funext p held; rw [Expr.ways, same], fun {p q} found => ?_⟩
    rw [same] at found
    exact CharClass.endAt_lt found
  | _ => cases simple

theorem leafEnds_ok {leaf : Attempt.LeafEnd}
    (reaches : ∀ {p q}, leaf p = .ok (some q) → t.Reaches p q)
    (ok : ∀ {p}, t.isBoundary p = true → ∃ found, leaf p = .ok found) (n : Nat) {p : Nat}
    (valid : t.isBoundary p = true) : ∃ ends, Attempt.leafEnds leaf n p = .ok ends := by
  induction n generalizing p with
  | zero => exact ⟨_, rfl⟩
  | succ n ih =>
    obtain ⟨found, ended⟩ := ok valid
    unfold Attempt.leafEnds
    simp only [ended, bind, Except.bind]
    cases found with
    | none => exact ⟨_, rfl⟩
    | some stop =>
      obtain ⟨ends, further⟩ := ih ((reaches ended).boundary valid)
      dsimp only
      rw [further]
      split <;> exact ⟨_, rfl⟩

theorem leafLoop_realizes (enclosing : g.Enclosing) {body : Expr} {a : Mark}
    {Φ : Nat → Registers → Prop} {rest : Way → Option Way} {after id cap min next : Nat}
    {max : Option Nat} {greedy : Bool} {n : Node} (simple : body.isSimpleLeaf = true)
    (checked : body.check g.captures = .ok ())
    (single : body.leafNode? after = some n) (leaf : g.nodes[a.node]? = some n)
    (node : g.nodes[id]? = some (.leafLoop a.node min max greedy next)) {b : Mark}
    (steady : Steady t Φ a b) (goes : Realizes g t origin Φ next rest) :
    Realizes g t origin Φ id fun (p, held) =>
      (iterations (body.ways t origin cap) greedy min max (t.size - p + 1) 0 p held).findSome?
        rest := by
  refine .of_rule fun depth p r valid holds s same ready => ?_
  obtain ⟨ways, moves⟩ := simpleLeaf_ends t origin cap simple single leaf s
  obtain ⟨ends, reached⟩ : ∃ ends, Attempt.leafEnds (g.leafEnd t s a.node)
      (Attempt.iterationsWithin t p max) p = .ok ends := leafEnds_ok Graph.leafEnd_reaches
    (fun valid => have ⟨found, ended, _⟩ := leafEnd_ok cap single checked leaf valid ready
      ⟨found, ended⟩) _ valid
  have order : iterations (fun p held => Expr.leafWays held (g.leafEnd t s a.node p)) greedy min
      max (t.size - p + 1) 0 p r.held = Expr.inOrder greedy r.held (ends.drop (min - 0)) :=
    Expr.iterations_leaf (fun ended =>
      ⟨moves ended, (Graph.leafEnd_reaches ended).le_size (Nat.ne_of_lt (moves ended))⟩)
      (Nat.lt_succ_self _) rfl reached
  have further : ∀ q ∈ ends, Yields g t origin (g.attemptWithin t depth next q) r
      (rest (q, r.held)) := by
    intro q member
    have reaches := Attempt.reaches_of_mem_leafEnds Graph.leafEnd_reaches reached member
    exact goes depth q r (reaches.boundary valid) (steady holds reaches fun _ _ => ⟨rfl, rfl⟩)
  have tidies : Tidies g t (g.pollBound t depth) (g.attemptWithin t depth) :=
    attemptWithin_tidy enclosing depth
  dsimp only
  rw [ways, order]
  simp only [Graph.visitNode, Graph.node_success.mpr node, bind, Except.bind]
  split
  · next prefers =>
    rw [Expr.inOrder, if_pos prefers, List.findSome?_map]
    exact Yields.leafLoopGreedy tidies reached further s same ready
  · next reluctant =>
    rw [Expr.inOrder, if_neg reluctant, List.findSome?_map]
    exact Yields.leafLoopReluctant tidies reached further s same ready

end LeafLoops

mutual
/-- A lowered expression realizes its ways, taken up one after the other. The induction is on how
the expression was lowered. -/
theorem Lowered.realizes (enclosing : g.Enclosing) {e next cap a id b} :
    Lowered g.nodes e next cap a id b → e.check g.captures = .ok () → b.slot ≤ g.slots →
      cap + e.captureCount ≤ g.captures + 1 → ∀ {Φ rest}, Steady t Φ a b →
        Realizes g t origin Φ next rest → Realizes g t origin Φ id fun (p, held) =>
          (e.ways t origin cap p held).findSome? rest
  | .nothing void => by
    intro _ _ _ Φ rest steady after depth p r valid holds
    dsimp only
    rw [Expr.ways_of_isVoid void valid, findSome?_cons_or]
    simpa using after depth p r valid holds
  | .leaf single here => by
    intro checked _ _ Φ rest steady after
    refine .of_rule fun depth p r valid holds => leaf_yields single checked here valid ?_
    intro q reaches
    have holds' : Φ q r := steady holds reaches fun _ _ => ⟨rfl, rfl⟩
    exact after depth q r (reaches.boundary valid) holds'
  | .row lowered _ => by
    intro checked slots captures Φ rest steady after
    simp only [Expr.check] at checked
    simp only [Expr.captureCount] at captures
    simp only [Expr.ways]
    exact lowered.realizes enclosing checked slots captures steady after
  | .sequence lowered _ here => by
    intro checked slots captures Φ rest steady after
    simp only [Expr.check] at checked
    simp only [Expr.captureCount] at captures
    refine .of_rule fun depth p r valid holds s same ready => ?_
    simp only [Graph.visitNode, Graph.node_success.mpr here, bind, Except.bind, lowered.head,
      Expr.ways]
    exact lowered.realizes enclosing checked slots captures steady after depth p r valid holds s
      same ready
  | @Lowered.group _ _ kind branches _ _ a ids b bracket tail lowered head => by
    intro checked slots captures Φ rest steady after
    have count := Expr.captureCount_of_asGroup? bracket
    have own : a.slot < b.slot := lowered.entered.2.1
    have inside : kind.firstInner cap + Expr.captureCountAll branches ≤ g.captures + 1 := by
      unfold GroupKind.firstInner
      split at count <;> split <;> first | contradiction | omega
    have realize : BranchesRealize g t origin ⟨a.node + 1, a.slot + 1⟩ b a.node ids
        (Expr.waysAny t origin branches (kind.firstInner cap)) :=
      lowered.realizes enclosing (Expr.check_branches bracket checked) slots inside
    have follow {p held way} (member : way ∈ Expr.waysAny t origin branches (kind.firstInner cap) p
        held) : Follows t p held way := Expr.waysAny_follow branches member
    have bound : a.slot < g.slots := Nat.lt_of_lt_of_le own slots
    simp only [Expr.ways_of_asGroup? bracket]
    cases kind with
    | capture =>
      simp only [if_true] at count
      exact capture_realizes enclosing bound own (by omega) head tail realize steady after
    | nonCapture => exact nonCapture_realizes enclosing bound own head tail realize steady after
    | atomic =>
      exact atomic_realizes enclosing slots own inside head tail realize follow steady after
    | lookAhead =>
      exact lookAhead_realizes enclosing slots own inside head tail realize follow steady after
    | negativeLookAhead =>
      exact lookAhead_realizes enclosing slots own inside head tail realize follow steady after
  | @Lowered.leafLoop _ _ _ _ kind _ _ _ _ bounded plain simple single leaf here => by
    intro checked slots captures Φ rest steady after
    have order : (kind != .reluctant) = (kind == .greedy) := by cases kind <;> trivial
    simp only [Expr.ways, bounded, plain, order, if_false]
    exact leafLoop_realizes enclosing simple (Expr.check_body checked) single leaf here steady after
  | @Lowered.loop _ body _ _ kind _ _ _ _ b bounded plain _ here tail lowered => by
    intro checked slots captures Φ rest steady after
    have order : (kind != .reluctant) = (kind == .greedy) := by cases kind <;> trivial
    have own : a.slot < b.slot := lowered.entered.2.1
    simp only [Expr.captureCount] at captures
    simp only [Expr.ways, bounded, plain, order, if_false]
    refine loop_realizes enclosing (Nat.lt_of_lt_of_le own slots) own here tail steady after ?_
    intro Ψ rest' within again
    exact lowered.realizes enclosing (Expr.check_body checked) slots captures within again
theorem LoweredRow.realizes (enclosing : g.Enclosing) {items next cap a children id b} :
    LoweredRow g.nodes items next cap a children id b → Expr.checkAll g.captures items = .ok () →
      b.slot ≤ g.slots → cap + Expr.captureCountAll items ≤ g.captures + 1 →
        ∀ {Φ rest}, Steady t Φ a b → Realizes g t origin Φ next rest →
          Realizes g t origin Φ id fun (p, held) =>
            (Expr.waysAll t origin items cap p held).findSome? rest
  | .nil => by
    intro _ _ _ Φ rest _ after depth p r valid holds
    simpa [Expr.waysAll] using after depth p r valid holds
  | .cons later first => by
    intro checked slots captures Φ rest steady after
    have before := later.entered
    have entered := first.entered
    rw [Expr.captureCountAll] at captures
    have ⟨here, others⟩ := Expr.check_cons checked
    simp only [Expr.waysAll, findSome?_flatMap]
    have between := later.realizes enclosing others (by omega) (by omega)
      (steady.part (Nat.le_refl _) entered.2.1) after
    exact first.realizes enclosing here slots (by omega) (steady.part before.2.1 (Nat.le_refl _))
      between
theorem LoweredBranches.realizes (enclosing : g.Enclosing) {branches next cap a ids b} :
    LoweredBranches g.nodes branches next cap a ids b →
      Expr.checkAll g.captures branches = .ok () → b.slot ≤ g.slots →
        cap + Expr.captureCountAll branches ≤ g.captures + 1 →
          BranchesRealize g t origin a b next ids (Expr.waysAny t origin branches cap)
  | .nil => by
    intro _ _ _ Φ rest _ _ depth p r _ _
    simp only [Expr.waysAny, List.findSome?_nil]
    exact Yields.firstSuccess_nil (g.attemptWithin t depth)
  | .cons first later => by
    intro checked slots captures Φ rest steady after depth p r valid holds
    have before := first.entered
    have entered := later.entered
    rw [Expr.captureCountAll] at captures
    have ⟨here, others⟩ := Expr.check_cons checked
    rw [Expr.waysAny, List.findSome?_append]
    apply Yields.firstSuccess_cons (attemptWithin_tidy enclosing depth)
    · exact first.realizes enclosing here (by omega) (by omega)
        (steady.part (Nat.le_refl _) entered.2.1) after depth p r valid holds
    · exact later.realizes enclosing others slots (by omega)
        (steady.part before.2.1 (Nat.le_refl _)) after depth p r valid holds
end

end BacktrackRegex
