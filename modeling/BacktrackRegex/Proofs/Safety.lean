import BacktrackRegex.Proofs.Simulation
import BacktrackRegex.Proofs.Soundness

/-! No fault is reachable. From sound registers a visit of the node where an expression is entered
endures, whatever the budget, if the visits of the node after it do. -/
namespace BacktrackRegex

namespace Expr

mutual
/-- Whether capture group `n` lies inside a lookahead, for an expression whose capture groups are
numbered from `cap` on. -/
def inLookAhead (n : Nat) : Expr → Nat → Bool
  | concat items, cap => inLookAheadAny n items cap
  | alternation branches, cap => inLookAheadAny n branches cap
  | group .capture body, cap => body.inLookAhead n (cap + 1)
  | group .nonCapture body, cap | group .atomic body, cap => body.inLookAhead n cap
  | group .lookAhead body, cap | group .negativeLookAhead body, cap =>
    cap ≤ n && n < cap + body.captureCount
  | repetition body _ _ _, cap => body.inLookAhead n cap
  | _, _ => false
def inLookAheadAny (n : Nat) : List Expr → Nat → Bool
  | [], _ => false
  | e :: es, cap => e.inLookAhead n cap || inLookAheadAny n es (cap + e.captureCount)
end

mutual
theorem inLookAhead_range {n : Nat} : ∀ (e : Expr) {cap : Nat}, e.inLookAhead n cap = true →
    cap ≤ n ∧ n < cap + e.captureCount
  | empty, _, inside | literal _ _, _, inside | charClass _, _, inside | anchor _, _, inside
  | backReference _ _, _, inside => by simp [inLookAhead] at inside
  | concat items, _, inside | alternation items, _, inside => by
    simp only [inLookAhead] at inside
    simpa only [captureCount] using inLookAheadAny_range items inside
  | group .capture body, _, inside => by
    simp only [inLookAhead] at inside
    have := inLookAhead_range body inside
    simp only [captureCount, if_true]
    omega
  | group .nonCapture body, _, inside | group .atomic body, _, inside => by
    simp only [inLookAhead] at inside
    simpa [captureCount] using inLookAhead_range body inside
  | group .lookAhead body, _, inside | group .negativeLookAhead body, _, inside => by
    simpa [inLookAhead, captureCount] using inside
  | repetition body _ _ _, _, inside => by
    simp only [inLookAhead] at inside
    simpa only [captureCount] using inLookAhead_range body inside
theorem inLookAheadAny_range {n : Nat} : ∀ (es : List Expr) {cap : Nat},
    inLookAheadAny n es cap = true → cap ≤ n ∧ n < cap + captureCountAll es
  | [], _, inside => by simp [inLookAheadAny] at inside
  | e :: es, cap, inside => by
    simp only [inLookAheadAny, Bool.or_eq_true] at inside
    rw [captureCountAll]
    rcases inside with first | later
    · have := inLookAhead_range e first
      omega
    · have := inLookAheadAny_range es later
      omega
end

theorem inLookAhead_of_asGroup? {n cap : Nat} {e : Expr} {kind : GroupKind} {branches : List Expr}
    (bracket : e.asGroup? = some (kind, branches)) : e.inLookAhead n cap =
      if kind = .lookAhead ∨ kind = .negativeLookAhead then
        cap ≤ n && n < cap + captureCountAll branches
      else inLookAheadAny n branches (kind.firstInner cap) := by
  obtain ⟨rfl, rfl⟩ | rfl | ⟨body, rfl, rfl⟩ | ⟨body, min, max, rfl, bounded, rfl, rfl⟩ :=
    asGroup?_cases bracket
  · simp [inLookAhead, GroupKind.firstInner]
  · cases kind <;> simp [inLookAhead, GroupKind.firstInner, captureCount] <;> rfl
  · cases kind <;>
      simp [inLookAhead, inLookAheadAny, GroupKind.firstInner, captureCountAll_singleton]
  · simp [inLookAhead, inLookAheadAny, GroupKind.firstInner]

end Expr

namespace Course

variable {c : Course} {Φ : Nat → Registers → Prop}

def Safe (c : Course) (Φ : Nat → Registers → Prop) (id : Nat) : Prop :=
  ∀ depth p r, Φ p r → c.Keeps (c.g.attemptWithin c.t depth id p) p r

theorem Safe.of_rule {id : Nat} (rule : ∀ depth p r, Φ p r →
    c.Keeps (c.g.visitNode c.t (c.g.attemptWithin c.t depth) id p) p r) : c.Safe Φ id := by
  intro depth p r holds s same sound
  cases depth with
  | zero => exact rfl
  | succ depth =>
    unfold Graph.attemptWithin
    split
    · trivial
    · next s' entered =>
      have inner := rule depth p r holds s' ((MatchState.enter_budget entered).1.trans same) sound
      cases visited : c.g.visitNode c.t (c.g.attemptWithin c.t depth) id p s' with
      | error e => rw [visited] at inner; exact inner
      | ok a =>
        rw [visited] at inner
        obtain ⟨stop, after⟩ := a
        cases stop <;> exact inner

theorem end_safe {id : Nat} {n : Node} (node : c.g.nodes[id]? = some n)
    (final : n = .succeed ∨ ∃ slot, n = .commit slot) : c.Safe Φ id := by
  refine .of_rule fun depth p r holds s same sound => ?_
  obtain rfl | ⟨slot, rfl⟩ := final <;>
    simp only [Graph.visitNode, Graph.node_success.mpr node, bind, Except.bind] <;>
    exact (same ▸ sound : c.Sound p s.regs)

theorem leafEnd_found {e : Expr} {next id p q : Nat} {n : Node} {s : MatchState}
    (single : e.leafNode? next = some n) (checked : e.check c.g.captures = .ok ())
    (node : c.g.nodes[id]? = some n) (sound : c.Sound p s.regs) (valid : c.t.isBoundary q = true) :
    ∃ found, c.g.leafEnd c.t s id q = .ok found := by
  -- Leaves look at registers only, so any budget will do.
  have ready : Ready c.g c.t c.origin ⟨s.regs, { options := .unlimited }⟩ :=
    ⟨sound.fitted, sound.valid, rfl, MatchOptions.unlimited_free⟩
  obtain ⟨found, ended, _⟩ := leafEnd_ok 0 single checked node valid ready
  exact ⟨found, ended⟩

theorem leaf_safe {e : Expr} {next id : Nat} {n : Node} {a b : Mark}
    (single : e.leafNode? next = some n) (checked : e.check c.g.captures = .ok ())
    (node : c.g.nodes[id]? = some n) (steady : Steady c.t Φ a b) (after : c.Safe Φ next) :
    c.Safe Φ id := by
  refine .of_rule fun depth p r holds s same sound => ?_
  obtain ⟨found, ended⟩ := leafEnd_found single checked node (same ▸ sound) sound.boundary
  rw [Graph.visitNode_leaf _ single node, ended, ok_bind]
  cases found with
  | none => trivial
  | some q =>
    have reaches := Graph.leafEnd_reaches ended
    exact after depth q r (steady holds reaches fun _ _ => ⟨rfl, rfl⟩) s same (sound.onward reaches)

def BranchesSafe (c : Course) (a b : Mark) (tail : Nat) (ids : List Nat) : Prop :=
  ∀ {Φ}, Steady c.t Φ a b → c.Safe Φ tail → ∀ id ∈ ids, c.Safe Φ id

def Begun (t : Text) (Φ : Nat → Registers → Prop) (slot start q : Nat) (r : Registers) : Prop :=
  t.Reaches start q ∧ Φ q r ∧ r.consumed[slot]? = some (some start)

variable {a b : Mark} {id next cap : Nat} {ids : List Nat}

theorem Begun.steady (steady : Steady c.t Φ a b) (start : Nat) {m : Mark}
    (within : m.slot = a.slot + 1) : Steady c.t (Begun c.t Φ a.slot start) m b := by
  intro p q r r' ⟨reaches, holds, begun⟩ further same
  have own := same a.slot (.inl (by omega))
  exact ⟨reaches.trans further, steady holds further fun k outside => same k (by omega),
    own.1.trans begun⟩

theorem Begun.now (steady : Steady c.t Φ a b) (own : a.slot < b.slot) (bound : a.slot < c.g.slots)
    {p : Nat} {r : Registers} (sound : c.Sound p r) (holds : Φ p r) :
    Begun c.t Φ a.slot p p (r.putConsumed a.slot (some p)) := by
  have sized : a.slot < r.consumed.size := sound.fitted.consumed ▸ bound
  exact ⟨.refl c.t p, steady.begin own holds (some p), by simp [Registers.putConsumed, sized]⟩

section Groups

theorem capture_safe (enclosing : c.g.Enclosing) (bound : a.slot < c.g.slots)
    (own : a.slot < b.slot) (inside : cap ≤ c.g.captures)
    (head : c.g.nodes[id]? = some (.group a.slot (some cap) ids next))
    (tail : c.g.nodes[a.node]? = some (.groupEnd a.slot (some cap) next))
    (branches : c.BranchesSafe ⟨a.node + 1, a.slot + 1⟩ b a.node ids)
    (steady : Steady c.t Φ a b) (after : c.Safe Φ next) : c.Safe Φ id := by
  refine .of_rule fun depth p r holds s same sound => ?_
  have ended : c.Safe (Begun c.t Φ a.slot p) a.node := by
    refine .of_rule fun depth q r' ⟨reaches, holds', begun⟩ s same => ?_
    simp only [Graph.visitNode, Graph.node_success.mpr tail, bind, Except.bind]
    exact Keeps.groupEnd_some (attemptWithin_tidy enclosing depth) inside begun sound.boundary
      sound.later reaches (after depth q _ (steady holds' (.refl c.t q) fun _ _ => ⟨rfl, rfl⟩)) s
      same
  simp only [Graph.visitNode, Graph.node_success.mpr head, bind, Except.bind]
  have tidies : Tidies c.g c.t _ (c.g.attemptWithin c.t depth) := attemptWithin_tidy enclosing depth
  refine Keeps.group tidies bound (.branches tidies fun b member => ?_) s same sound
  exact branches (Begun.steady steady p rfl) ended b member depth p _
    (Begun.now steady own bound sound holds)

theorem nonCapture_safe (enclosing : c.g.Enclosing) (bound : a.slot < c.g.slots)
    (own : a.slot < b.slot) (head : c.g.nodes[id]? = some (.group a.slot none ids next))
    (tail : c.g.nodes[a.node]? = some (.groupEnd a.slot none next))
    (branches : c.BranchesSafe ⟨a.node + 1, a.slot + 1⟩ b a.node ids)
    (steady : Steady c.t Φ a b) (after : c.Safe Φ next) : c.Safe Φ id := by
  refine .of_rule fun depth p r holds s same => ?_
  have ended : c.Safe Φ a.node := by
    refine .of_rule fun depth q r' holds' s same => ?_
    simp only [Graph.visitNode, Graph.node_success.mpr tail, bind, Except.bind]
    exact after depth q r' holds' s same
  simp only [Graph.visitNode, Graph.node_success.mpr head, bind, Except.bind]
  have tidies : Tidies c.g c.t _ (c.g.attemptWithin c.t depth) := attemptWithin_tidy enclosing depth
  refine Keeps.group tidies bound (.branches tidies fun b member => ?_) s same
  exact branches (steady.part (Nat.le_succ _) (Nat.le_refl _)) ended b member depth p _
    (steady.begin own holds (some p))

theorem atomic_safe (enclosing : c.g.Enclosing) (bound : b.slot ≤ c.g.slots)
    (own : a.slot < b.slot) {captures : Interval} (inside : captures.stop ≤ c.g.captures + 1)
    (head : c.g.nodes[id]? =
      some (.atomic a.slot ids ⟨captures, ⟨a.slot + 1, b.slot⟩⟩ next))
    (tail : c.g.nodes[a.node]? = some (.commit a.slot))
    (branches : c.BranchesSafe ⟨a.node + 1, a.slot + 1⟩ b a.node ids)
    (steady : Steady c.t Φ a b) (after : c.Safe Φ next) : c.Safe Φ id := by
  refine .of_rule fun depth p r holds s same => ?_
  simp only [Graph.visitNode, Graph.node_success.mpr head, bind, Except.bind]
  have tidies : Tidies c.g c.t _ (c.g.attemptWithin c.t depth) := attemptWithin_tidy enclosing depth
  refine Keeps.atomic tidies (enclosing head rfl) (by omega) inside bound
    (.branches tidies fun b member => ?_) (fun q r' reaches framed => ?_) s same
  · exact branches (Φ := fun _ _ => True) (fun _ _ _ => trivial) (end_safe tail (.inr ⟨_, rfl⟩)) b
      member depth p _ trivial
  · exact after depth q r' (steady.committed own holds (some p) reaches framed)

theorem lookAhead_safe (enclosing : c.g.Enclosing) (bound : b.slot ≤ c.g.slots)
    (own : a.slot < b.slot) {captures : Interval} (inside : captures.stop ≤ c.g.captures + 1)
    (ahead : ∀ n, captures.contains n = true → c.ahead n) {negative : Bool}
    (head : c.g.nodes[id]? =
      some (.lookAhead a.slot negative ids ⟨captures, ⟨a.slot + 1, b.slot⟩⟩ next))
    (tail : c.g.nodes[a.node]? = some (.commit a.slot))
    (branches : c.BranchesSafe ⟨a.node + 1, a.slot + 1⟩ b a.node ids)
    (steady : Steady c.t Φ a b) (after : c.Safe Φ next) : c.Safe Φ id := by
  refine .of_rule fun depth p r holds s same => ?_
  simp only [Graph.visitNode, Graph.node_success.mpr head, bind, Except.bind]
  have tidies : Tidies c.g c.t _ (c.g.attemptWithin c.t depth) := attemptWithin_tidy enclosing depth
  refine Keeps.lookAhead tidies (enclosing head rfl) (by omega) inside bound ahead
    (.branches tidies fun b member => ?_) (fun r' framed => ?_) s same
  · exact branches (Φ := fun _ _ => True) (fun _ _ _ => trivial) (end_safe tail (.inr ⟨_, rfl⟩)) b
      member depth p _ trivial
  · exact after depth p r' (steady.committed own holds (some p) (.refl c.t p) framed)

end Groups

section Loops

variable {entry min tail : Nat} {max : Option Nat} {greedy : Bool}

theorem repeatStep_safe (enclosing : c.g.Enclosing) (bound : a.slot < c.g.slots)
    (own : a.slot < b.slot)
    (owner : c.g.nodes[a.node]? = some (.loop ⟨a.slot, entry, min, max, greedy, next⟩))
    (node : c.g.nodes[tail]? = some (.loopTail a.node)) (steady : Steady c.t Φ a b)
    (after : c.Safe Φ next)
    (inner : ∀ {Ψ}, Steady c.t Ψ ⟨a.node + 2, a.slot + 1⟩ b → c.Safe Ψ tail → c.Safe Ψ entry)
    {depth p : Nat} {r : Registers} (holds : Φ p r) :
    c.Keeps (Attempt.repeatStep (c.g.attemptWithin c.t depth)
      ⟨a.slot, entry, min, max, greedy, next⟩ p) p r := by
  -- On the text that is left: the next step is made where an iteration has consumed something.
  induction left : c.t.size - p using Nat.strongRecOn generalizing depth p r with
  | ind left ih =>
  have again : c.Safe (Begun c.t Φ a.slot p) tail := by
    refine .of_rule fun depth q r' ⟨reaches, holds', begun⟩ s same => ?_
    simp only [Graph.visitNode, Graph.node_success.mpr node, Graph.loopAt_of_node owner, bind,
      Except.bind]
    refine Keeps.loopTail (attemptWithin_tidy enclosing depth) bound (after depth q r' holds')
      (fun moved n => ?_) s same
    have moved : p ≠ q := fun here => moved (here ▸ begun)
    have le := reaches.le
    have within := reaches.le_size moved
    refine ih (c.t.size - q) (by omega) (steady holds' (.refl c.t q) fun k outside => ⟨rfl, ?_⟩) rfl
    exact Array.getElem?_setIfInBounds_ne (by dsimp only; omega)
  intro s same sound
  exact Keeps.repeatStep (attemptWithin_tidy enclosing depth) bound
    (inner (Begun.steady steady p rfl) again depth p _ (Begun.now steady own bound sound holds))
    (after depth p r holds) s same sound

theorem loop_safe (enclosing : c.g.Enclosing) (bound : a.slot < c.g.slots) (own : a.slot < b.slot)
    (owner : c.g.nodes[a.node]? = some (.loop ⟨a.slot, entry, min, max, greedy, next⟩))
    (node : c.g.nodes[tail]? = some (.loopTail a.node)) (steady : Steady c.t Φ a b)
    (after : c.Safe Φ next)
    (inner : ∀ {Ψ}, Steady c.t Ψ ⟨a.node + 2, a.slot + 1⟩ b → c.Safe Ψ tail → c.Safe Ψ entry) :
    c.Safe Φ a.node := by
  refine .of_rule fun depth p r holds s same => ?_
  simp only [Graph.visitNode, Graph.node_success.mpr owner, bind, Except.bind]
  refine Keeps.loop (attemptWithin_tidy enclosing depth) bound
    (repeatStep_safe enclosing bound own owner node steady after inner ?_) s same
  exact steady holds (.refl c.t p) fun k outside =>
    ⟨Array.getElem?_setIfInBounds_ne (by dsimp only; omega),
      Array.getElem?_setIfInBounds_ne (by dsimp only; omega)⟩

theorem leafLoop_safe (enclosing : c.g.Enclosing) {body : Expr} {end' leaf : Nat} {n : Node}
    (checked : body.check c.g.captures = .ok ()) (single : body.leafNode? end' = some n)
    (node : c.g.nodes[leaf]? = some n)
    (head : c.g.nodes[id]? = some (.leafLoop leaf min max greedy next))
    (steady : Steady c.t Φ a b) (after : c.Safe Φ next) : c.Safe Φ id := by
  refine .of_rule fun depth p r holds s same sound => ?_
  have ok {q : Nat} (valid : c.t.isBoundary q = true) :
      ∃ found, c.g.leafEnd c.t s leaf q = .ok found :=
    leafEnd_found single checked node (same ▸ sound) valid
  have further (q : Nat) (reaches : c.t.Reaches p q) :
      c.Keeps (c.g.attemptWithin c.t depth next q) q r :=
    after depth q r (steady holds reaches fun _ _ => ⟨rfl, rfl⟩)
  have tidies : Tidies c.g c.t _ (c.g.attemptWithin c.t depth) := attemptWithin_tidy enclosing depth
  simp only [Graph.visitNode, Graph.node_success.mpr head, bind, Except.bind]
  split
  · obtain ⟨ends, reached⟩ := leafEnds_ok Graph.leafEnd_reaches ok
      (Attempt.iterationsWithin c.t p max) sound.boundary
    refine Keeps.leafLoopGreedy tidies reached (fun q member => ?_) s same sound
    have reaches := Attempt.reaches_of_mem_leafEnds Graph.leafEnd_reaches reached member
    exact fun s same sound => further q reaches s same (sound.onward reaches)
  · exact Keeps.leafLoopReluctant tidies ok Graph.leafEnd_reaches further s same sound

end Loops

mutual
/-- A lowered expression is safe where what follows it is. The induction is on how it was lowered.
-/
theorem lowered_safe (enclosing : c.g.Enclosing) {e next cap a id b} :
    Lowered c.g.nodes e next cap a id b → e.check c.g.captures = .ok () → b.slot ≤ c.g.slots →
      cap + e.captureCount ≤ c.g.captures + 1 → (∀ n, e.inLookAhead n cap = true → c.ahead n) →
        ∀ {Φ}, Steady c.t Φ a b → c.Safe Φ next → c.Safe Φ id
  | .nothing _ => by
    intro _ _ _ _ Φ _ after
    exact after
  | .leaf single here => by
    intro checked _ _ _ Φ steady after
    exact leaf_safe single checked here steady after
  | .row lowered _ => by
    intro checked slots captures ahead Φ steady after
    simp only [Expr.check] at checked
    simp only [Expr.captureCount] at captures
    simp only [Expr.inLookAhead] at ahead
    exact loweredRow_safe enclosing lowered checked slots captures ahead steady after
  | .sequence lowered _ here => by
    intro checked slots captures ahead Φ steady after
    simp only [Expr.check] at checked
    simp only [Expr.captureCount] at captures
    simp only [Expr.inLookAhead] at ahead
    refine .of_rule fun depth p r holds s same => ?_
    simp only [Graph.visitNode, Graph.node_success.mpr here, bind, Except.bind, lowered.head]
    exact loweredRow_safe enclosing lowered checked slots captures ahead steady after depth p r
      holds s same
  | @Lowered.group _ _ kind branches _ _ a ids b bracket tail lowered head => by
    intro checked slots captures ahead Φ steady after
    have count := Expr.captureCount_of_asGroup? bracket
    have own : a.slot < b.slot := lowered.entered.2.1
    have inside : kind.firstInner cap + Expr.captureCountAll branches ≤ c.g.captures + 1 := by
      unfold GroupKind.firstInner
      split at count <;> split <;> first | contradiction | omega
    have among (n : Nat) : Expr.inLookAheadAny n branches (kind.firstInner cap) = true →
        c.ahead n := by
      intro member
      apply ahead
      rw [Expr.inLookAhead_of_asGroup? bracket]
      split
      · next looks =>
        have range := Expr.inLookAheadAny_range branches member
        obtain rfl | rfl := looks <;> simpa [GroupKind.firstInner] using range
      · exact member
    have safe : c.BranchesSafe ⟨a.node + 1, a.slot + 1⟩ b a.node ids :=
      loweredBranches_safe enclosing lowered (Expr.check_branches bracket checked) slots inside
        among
    have bound : a.slot < c.g.slots := Nat.lt_of_lt_of_le own slots
    cases kind with
    | capture =>
      simp only [if_true] at count
      exact capture_safe enclosing bound own (by omega) head tail safe steady after
    | nonCapture => exact nonCapture_safe enclosing bound own head tail safe steady after
    | atomic => exact atomic_safe enclosing slots own inside head tail safe steady after
    | lookAhead | negativeLookAhead =>
      refine lookAhead_safe enclosing slots own inside (fun n within => ahead n ?_) head tail safe
        steady after
      rw [Expr.inLookAhead_of_asGroup? bracket]
      simpa [Interval.contains, GroupKind.firstInner] using within
  | .leafLoop _ _ _ single leaf here => by
    intro checked _ _ _ Φ steady after
    exact leafLoop_safe enclosing (Expr.check_body checked) single leaf here steady after
  | .loop _ _ _ here tail lowered => by
    intro checked slots captures ahead Φ steady after
    have own := lowered.entered.2.1
    simp only [Expr.captureCount] at captures
    simp only [Expr.inLookAhead] at ahead
    refine loop_safe enclosing (Nat.lt_of_lt_of_le own slots) own here tail steady after ?_
    intro Ψ within again
    exact lowered_safe enclosing lowered (Expr.check_body checked) slots captures ahead within again
theorem loweredRow_safe (enclosing : c.g.Enclosing) {items next cap a children id b} :
    LoweredRow c.g.nodes items next cap a children id b →
      Expr.checkAll c.g.captures items = .ok () → b.slot ≤ c.g.slots →
        cap + Expr.captureCountAll items ≤ c.g.captures + 1 →
          (∀ n, Expr.inLookAheadAny n items cap = true → c.ahead n) →
            ∀ {Φ}, Steady c.t Φ a b → c.Safe Φ next → c.Safe Φ id
  | .nil => by
    intro _ _ _ _ Φ _ after
    exact after
  | .cons later first => by
    intro checked slots captures ahead Φ steady after
    have before := later.entered
    have entered := first.entered
    rw [Expr.captureCountAll] at captures
    have ⟨here, others⟩ := Expr.check_cons checked
    simp only [Expr.inLookAheadAny, Bool.or_eq_true] at ahead
    have between := loweredRow_safe enclosing later others (by omega) (by omega)
      (fun n inside => ahead n (.inr inside)) (steady.part (Nat.le_refl _) entered.2.1) after
    exact lowered_safe enclosing first here slots (by omega) (fun n inside => ahead n (.inl inside))
      (steady.part before.2.1 (Nat.le_refl _)) between
theorem loweredBranches_safe (enclosing : c.g.Enclosing) {branches next cap a ids b} :
    LoweredBranches c.g.nodes branches next cap a ids b →
      Expr.checkAll c.g.captures branches = .ok () → b.slot ≤ c.g.slots →
        cap + Expr.captureCountAll branches ≤ c.g.captures + 1 →
          (∀ n, Expr.inLookAheadAny n branches cap = true → c.ahead n) →
            c.BranchesSafe a b next ids
  | .nil => by
    intro _ _ _ _ Φ _ _
    simp
  | .cons first later => by
    intro checked slots captures ahead Φ steady after
    have before := first.entered
    have entered := later.entered
    rw [Expr.captureCountAll] at captures
    have ⟨here, others⟩ := Expr.check_cons checked
    simp only [Expr.inLookAheadAny, Bool.or_eq_true] at ahead
    refine List.forall_mem_cons.mpr ⟨?_, ?_⟩
    · exact lowered_safe enclosing first here (by omega) (by omega)
        (fun n inside => ahead n (.inl inside)) (steady.part (Nat.le_refl _) entered.2.1) after
    · exact loweredBranches_safe enclosing later others slots (by omega)
        (fun n inside => ahead n (.inr inside)) (steady.part before.2.1 (Nat.le_refl _)) after
end

end Course

end BacktrackRegex
