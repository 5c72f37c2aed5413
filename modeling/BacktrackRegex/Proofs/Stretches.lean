import BacktrackRegex.Proofs.Lowered
import BacktrackRegex.Proofs.Regions

/-! The stretch of the arena that an expression is lowered to. Its nodes lead to each other and to
the node after the expression, and write no registers but those made with them. Hence what an atomic
group or a lookahead encloses is closed. -/
namespace BacktrackRegex

namespace Expr

theorem captureCount_of_asGroup? {e : Expr} {kind : GroupKind} {es : List Expr}
    (bracket : e.asGroup? = some (kind, es)) :
    e.captureCount = captureCountAll es + if kind = .capture then 1 else 0 := by
  obtain ⟨rfl, rfl⟩ | rfl | ⟨body, rfl, rfl⟩ | ⟨body, min, max, rfl, _, rfl, rfl⟩ :=
    asGroup?_cases bracket <;> simp [captureCount, captureCountAll]

end Expr

variable {g : Graph}

mutual
theorem Lowered.entered {e next cap a id b} :
    Lowered g.nodes e next cap a id b → a.node ≤ b.node ∧ a.slot ≤ b.slot ∧
      (id = next ∨ (a.node ≤ id ∧ id < b.node))
  | .nothing _ => by omega
  | .leaf _ _ => by
    dsimp only
    omega
  | .row lowered _ => lowered.entered
  | .sequence lowered _ _ => by
    have ⟨nodes, slots, _⟩ := lowered.entered
    exact ⟨Nat.le_succ_of_le nodes, slots, .inr ⟨nodes, Nat.lt_succ_self _⟩⟩
  | .group _ _ lowered _ => by
    have ⟨nodes, slots, _⟩ := lowered.entered
    dsimp only at nodes slots ⊢
    exact ⟨by omega, by omega, .inr (by omega)⟩
  | .leafLoop _ _ _ _ _ _ => by
    dsimp only
    omega
  | .loop _ _ _ _ _ lowered => by
    have ⟨nodes, slots, _⟩ := lowered.entered
    dsimp only at nodes slots
    exact ⟨by omega, by omega, .inr (by omega)⟩
theorem LoweredRow.entered {items next cap a children id b} :
    LoweredRow g.nodes items next cap a children id b → a.node ≤ b.node ∧ a.slot ≤ b.slot ∧
      (id = next ∨ (a.node ≤ id ∧ id < b.node))
  | .nil => by omega
  | .cons later first => by
    have := later.entered
    have := first.entered
    omega
theorem LoweredBranches.entered {branches next cap a ids b} :
    LoweredBranches g.nodes branches next cap a ids b → a.node ≤ b.node ∧ a.slot ≤ b.slot ∧
      ∀ id ∈ ids, id = next ∨ (a.node ≤ id ∧ id < b.node)
  | .nil => by simp
  | .cons first later => by
    have here := first.entered
    have ⟨nodes, slots, entries⟩ := later.entered
    refine ⟨by omega, by omega, fun id member => ?_⟩
    rcases List.mem_cons.mp member with rfl | member
    · omega
    · have := entries id member
      omega
end

theorem LoweredRow.head {items next cap a children id b} :
    LoweredRow g.nodes items next cap a children id b → children.head?.getD next = id
  | .nil => rfl
  | .cons later _ => by
    split
    · next same => rw [same]; exact later.head
    · rfl

theorem LoweredRow.children_inside {items next cap a children id b} :
    LoweredRow g.nodes items next cap a children id b →
      ∀ child ∈ children, a.node ≤ child ∧ child < b.node
  | .nil => by simp
  | .cons later first => by
    have low := later.entered
    have high := first.entered
    have others := later.children_inside
    split
    · intro child member
      have := others child member
      omega
    · next moved =>
      intro child member
      obtain rfl | member := List.mem_cons.mp member
      · omega
      · have := others child member
        omega

theorem Graph.visitNode_leaf {t : Text} {e : Expr} {next id p : Nat} {n : Node} {s : MatchState}
    (visit : Visit) (single : e.leafNode? next = some n) (node : g.nodes[id]? = some n) :
    g.visitNode t visit id p s =
      g.leafEnd t s id p >>= fun found =>
        found.elim (.ok (none, s)) fun stop => visit next stop s := by
  revert single
  fun_cases Expr.leafNode? e next <;> intro single <;> cases single <;>
    simp only [visitNode, node_success.mpr node, bind, Except.bind] <;>
    cases g.leafEnd t s id p <;> first | rfl | (next found => cases found <;> rfl)

def Mark.frame (a b : Mark) (cap count : Nat) : Frame := ⟨⟨cap, cap + count⟩, ⟨a.slot, b.slot⟩⟩

def Mark.Within (a b : Mark) (next m : Nat) : Prop :=
  (a.node ≤ m ∧ m < b.node) ∨ m = next ∨ m = Node.succeedId

/-- A node that leads inside, writes registers of the frame and encloses what it puts back, which
lies in the frame. -/
structure Placed (g : Graph) (inside : NodeId → Prop) (f : Frame) (n : Node) : Prop where
  links : ∀ m ∈ g.links n, inside m
  slot : ∀ k, g.slot? n = some k → f.slots.contains k = true
  capture : ∀ k, n.capture? = some k → f.captures.contains k = true
  encloses : ∀ branches inner, n.enclosed? = some (branches, inner) →
    ∀ b ∈ branches, g.Confined b inner
  fits : ∀ branches inner, n.enclosed? = some (branches, inner) →
    inner.slots.stop ≤ f.slots.stop ∧ inner.captures.stop ≤ f.captures.stop

theorem Placed.mono {inside wider : NodeId → Prop} {f f' : Frame} {n : Node}
    (placed : Placed g inside f n) (weaker : ∀ m, inside m → wider m)
    (slots : f'.slots.start ≤ f.slots.start ∧ f.slots.stop ≤ f'.slots.stop)
    (captures : f'.captures.start ≤ f.captures.start ∧ f.captures.stop ≤ f'.captures.stop) :
    Placed g wider f' n := by
  constructor
  case links =>
    intro m member
    exact weaker m (placed.links m member)
  case slot =>
    intro k written
    have := Interval.contains_iff.mp (placed.slot k written)
    exact Interval.contains_iff.mpr (by omega)
  case capture =>
    intro k written
    have := Interval.contains_iff.mp (placed.capture k written)
    exact Interval.contains_iff.mpr (by omega)
  case encloses => exact placed.encloses
  case fits =>
    intro branches inner found
    have := placed.fits branches inner found
    omega

theorem Placed.amid {a b c d : Mark} {next next' cap cap' count count' : Nat} {n : Node}
    (placed : Placed g (c.Within d next') (c.frame d cap' count') n)
    (nodes : a.node ≤ c.node ∧ d.node ≤ b.node) (leads : a.Within b next next')
    (slots : a.slot ≤ c.slot ∧ d.slot ≤ b.slot)
    (captures : cap ≤ cap' ∧ cap' + count' ≤ cap + count) :
    Placed g (a.Within b next) (a.frame b cap count) n := by
  refine placed.mono (fun m within => ?_) slots captures
  obtain inside | rfl | rfl := within
  · exact .inl ⟨Nat.le_trans nodes.1 inside.1, Nat.lt_of_lt_of_le inside.2 nodes.2⟩
  · exact leads
  · exact .inr (.inr rfl)

theorem Placed.plain {n : Node} {inside : NodeId → Prop} {f : Frame}
    (links : ∀ m ∈ g.links n, inside m) (slot : g.slot? n = none) (capture : n.capture? = none)
    (enclosed : n.enclosed? = none) : Placed g inside f n := by
  constructor
  case links => exact links
  case slot =>
    intro k written
    simp [slot] at written
  case capture =>
    intro k written
    simp [capture] at written
  case encloses =>
    intro _ _ found
    simp [enclosed] at found
  case fits =>
    intro _ _ found
    simp [enclosed] at found

theorem Placed.leaf {e : Expr} {next : NodeId} {n : Node} {inside : NodeId → Prop} {f : Frame}
    (single : e.leafNode? next = some n) (after : inside next) : Placed g inside f n := by
  revert single
  fun_cases Expr.leafNode? e next <;> intro single <;> cases single <;>
    exact .plain (by simpa [Graph.links] using after) rfl rfl rfl

theorem Placed.tail {kind : GroupKind} {slot cap : Nat} {next : NodeId} {inside : NodeId → Prop}
    {f : Frame} (after : inside next) (own : kind = .capture → f.captures.contains cap = true) :
    Placed g inside f (kind.tail slot cap next) := by
  refine ⟨?_, ?_, ?_, ?_, ?_⟩
  · cases kind <;> simp [GroupKind.tail, Graph.links, after]
  · cases kind <;> simp [GroupKind.tail, Graph.slot?]
  · cases kind with
    | capture => simpa [GroupKind.tail, Node.capture?] using own
    | _ => simp [GroupKind.tail, Node.capture?]
  · cases kind <;> simp [GroupKind.tail, Node.enclosed?]
  · cases kind <;> simp [GroupKind.tail, Node.enclosed?]

theorem Placed.head {kind : GroupKind} {slot cap : Nat} {branches : List NodeId} {inner : Frame}
    {next : NodeId} {inside : NodeId → Prop} {f : Frame} (after : inside next)
    (entries : ∀ b ∈ branches, inside b) (own : f.slots.contains slot = true)
    (encloses : kind ≠ .capture → kind ≠ .nonCapture → ∀ b ∈ branches, g.Confined b inner)
    (fits : inner.slots.stop ≤ f.slots.stop ∧ inner.captures.stop ≤ f.captures.stop) :
    Placed g inside f (kind.head slot cap branches inner next) := by
  refine ⟨?_, ?_, ?_, ?_, ?_⟩
  · cases kind <;> simpa [GroupKind.head, Graph.links, after] using entries
  · cases kind <;> simpa [GroupKind.head, Graph.slot?] using own
  · cases kind <;> simp [GroupKind.head, Node.capture?]
  · cases kind with
    | capture | nonCapture => simp [GroupKind.head, Node.enclosed?]
    | _ => simpa [GroupKind.head, Node.enclosed?] using encloses
  · cases kind with
    | capture | nonCapture => simp [GroupKind.head, Node.enclosed?]
    | _ => simpa [GroupKind.head, Node.enclosed?] using fits

theorem closed_of_placed (succeed : g.nodes[Node.succeedId]? = some .succeed) {a b : Mark}
    {next slot : Nat} {f : Frame} (commit : g.nodes[next]? = some (.commit slot))
    (placed : ∀ {m n}, a.node ≤ m → m < b.node → g.nodes[m]? = some n →
      Placed g (a.Within b next) f n) : g.Closed (a.Within b next) f := by
  have leads {id n} (within : a.Within b next id) (node : g.nodes[id]? = some n) :
      Placed g (a.Within b next) f n := by
    obtain ⟨low, high⟩ | rfl | rfl := within
    · exact placed low high node
    · cases commit.symm.trans node
      exact .plain (by simp [Graph.links]) rfl rfl rfl
    · cases succeed.symm.trans node
      exact .plain (by simp [Graph.links]) rfl rfl rfl
  exact ⟨fun within node member => (leads within node).links _ member,
    fun within node written => (leads within node).slot _ written,
    fun within node written => (leads within node).capture _ written⟩

mutual
theorem Lowered.placed (succeed : g.nodes[Node.succeedId]? = some .succeed)
    {e next cap a id b m n} : Lowered g.nodes e next cap a id b → a.node ≤ m → m < b.node →
      g.nodes[m]? = some n → Placed g (a.Within b next) (a.frame b cap e.captureCount) n
  | .nothing _ => by
    intro low high _
    omega
  | .leaf single here => by
    intro low high node
    obtain rfl : m = a.node := by dsimp only at high; omega
    cases here.symm.trans node
    exact .leaf single (.inr (.inl rfl))
  | .row lowered _ => lowered.placed succeed
  | .sequence (b := b) lowered _ here => by
    intro low high node
    rcases Nat.lt_or_ge m b.node with inside | top
    · refine (lowered.placed succeed low inside node).amid (by simp) (.inr (.inl rfl)) (by simp) ?_
      simp [Expr.captureCount]
    · obtain rfl : m = b.node := by dsimp only at high; omega
      cases here.symm.trans node
      have entered := lowered.entered
      refine .plain ?_ rfl rfl rfl
      simp only [Graph.links, lowered.head, List.mem_singleton, forall_eq]
      unfold Mark.Within
      dsimp only
      omega
  | @Lowered.group _ _ kind _ _ _ a _ b bracket tail lowered head => by
    intro low high node
    have count := Expr.captureCount_of_asGroup? bracket
    have entered := lowered.entered
    dsimp only at entered low high
    rcases Nat.lt_or_ge m b.node with inside | top
    · rcases Nat.lt_or_ge a.node m with above | bottom
      · refine (lowered.placed succeed above inside node).amid (by simp) (.inl ?_) (by simp) ?_
        · dsimp only
          omega
        · simp only [count, GroupKind.firstInner]
          split <;> omega
      · obtain rfl : m = a.node := by omega
        cases tail.symm.trans node
        refine .tail (.inr (.inl rfl)) fun capture => Interval.contains_iff.mpr ?_
        simp only [Mark.frame, count, capture, if_true]
        omega
    · obtain rfl : m = b.node := by omega
      cases head.symm.trans node
      refine .head (.inr (.inl rfl)) ?_ (Interval.contains_iff.mpr ?_) ?_ ?_
      · intro entry member
        have := entered.2.2 entry member
        unfold Mark.Within
        dsimp only
        omega
      · simp only [Mark.frame]
        omega
      · intro _ _ entry member
        have commit : g.nodes[a.node]? = some (.commit a.slot) := by
          cases kind <;> first | contradiction | exact tail
        refine ⟨_, closed_of_placed succeed commit (lowered.placed succeed), ?_⟩
        have := entered.2.2 entry member
        unfold Mark.Within
        dsimp only
        omega
      · simp only [Mark.frame, count, GroupKind.firstInner]
        split <;> omega
  | .leafLoop (a := a) _ _ _ single leaf here => by
    intro low high node
    dsimp only at high
    rcases Nat.lt_or_ge a.node m with above | bottom
    · obtain rfl : m = a.node + 1 := by omega
      cases here.symm.trans node
      exact .plain (by simp [Graph.links, Mark.Within]) rfl rfl rfl
    · obtain rfl : m = a.node := by omega
      cases leaf.symm.trans node
      exact .leaf single (.inr (.inr rfl))
  | @Lowered.loop _ body min max kind _ _ a id b _ _ _ here tail lowered => by
    intro low high node
    have entered := lowered.entered
    dsimp only at entered
    rcases Nat.lt_or_ge m (a.node + 2) with bottom | above
    · have own : (a.frame b cap (Expr.captureCount (.repetition body min max kind))).slots.contains
          a.slot = true := by
        rw [Interval.contains_iff]
        dsimp only [Mark.frame]
        omega
      have links : ∀ m ∈ [id, next], a.Within b next m := by
        simp only [List.mem_cons, List.not_mem_nil, or_false]
        unfold Mark.Within
        omega
      obtain rfl | rfl : m = a.node ∨ m = a.node + 1 := by omega
      · cases here.symm.trans node
        exact ⟨links, by simpa [Graph.slot?] using own, by simp [Node.capture?],
          by simp [Node.enclosed?], by simp [Node.enclosed?]⟩
      · cases tail.symm.trans node
        have owner := Graph.ownedLoop_iff.mpr here
        exact ⟨by simpa [Graph.links, owner] using links, by simpa [Graph.slot?, owner] using own,
          by simp [Node.capture?], by simp [Node.enclosed?], by simp [Node.enclosed?]⟩
    · refine (lowered.placed succeed above high node).amid (by simp) (.inl ?_) (by simp) ?_
      · omega
      · simp [Expr.captureCount]
theorem LoweredRow.placed (succeed : g.nodes[Node.succeedId]? = some .succeed)
    {items next cap a children id b m n} :
    LoweredRow g.nodes items next cap a children id b → a.node ≤ m → m < b.node →
      g.nodes[m]? = some n →
      Placed g (a.Within b next) (a.frame b cap (Expr.captureCountAll items)) n
  | .nil => by
    intro low high _
    omega
  | .cons (b := b) later first => by
    intro low high node
    have before := later.entered
    have entered := first.entered
    rcases Nat.lt_or_ge m b.node with inside | above
    · refine (later.placed succeed low inside node).amid (by omega) (.inr (.inl rfl)) (by omega) ?_
      rw [Expr.captureCountAll]
      omega
    · refine (first.placed succeed above high node).amid (by omega) ?_ (by omega) ?_
      · unfold Mark.Within
        omega
      · rw [Expr.captureCountAll]
        omega
theorem LoweredBranches.placed (succeed : g.nodes[Node.succeedId]? = some .succeed)
    {branches next cap a ids b m n} :
    LoweredBranches g.nodes branches next cap a ids b → a.node ≤ m → m < b.node →
      g.nodes[m]? = some n →
      Placed g (a.Within b next) (a.frame b cap (Expr.captureCountAll branches)) n
  | .nil => by
    intro low high _
    omega
  | .cons (b := b) first later => by
    intro low high node
    have entered := first.entered
    have after := later.entered
    rcases Nat.lt_or_ge m b.node with inside | above
    · refine (first.placed succeed low inside node).amid (by omega) (.inr (.inl rfl)) (by omega) ?_
      rw [Expr.captureCountAll]
      omega
    · refine (later.placed succeed above high node).amid (by omega) (.inr (.inl rfl)) (by omega) ?_
      rw [Expr.captureCountAll]
      omega
end

namespace Expr.Compiled

theorem placed {e : Expr} (compiled : e.Compiled g) {id : NodeId} {n : Node}
    (node : g.nodes[id]? = some n) : n = .succeed ∨
      Placed g (Mark.Within ⟨1, 0⟩ ⟨g.size, g.slots⟩ Node.succeedId)
        (Mark.frame ⟨1, 0⟩ ⟨g.size, g.slots⟩ 1 g.captures) n := by
  rcases Nat.eq_zero_or_pos id with rfl | inside
  · exact .inl (Option.some.inj (node.symm.trans compiled.succeed))
  · exact .inr (compiled.captures ▸ compiled.lowered.placed compiled.succeed inside
      (Array.getElem?_eq_some_iff.mp node).1 node)

theorem enclosing {e : Expr} (compiled : e.Compiled g) : g.Enclosing := by
  intro id n branches inner node enclosed
  rcases compiled.placed node with rfl | placed
  · cases enclosed
  · exact placed.encloses branches inner enclosed

/-- What an atomic group or a lookahead puts back lies in the registers of the graph. -/
theorem frame_fits {e : Expr} (compiled : e.Compiled g) {id : NodeId} {n : Node}
    {branches : List NodeId} {inner : Frame} (node : g.nodes[id]? = some n)
    (enclosed : n.enclosed? = some (branches, inner)) :
    inner.captures.stop ≤ g.captures + 1 ∧ inner.slots.stop ≤ g.slots := by
  rcases compiled.placed node with rfl | placed
  · cases enclosed
  · have fits := placed.fits branches inner enclosed
    dsimp only [Mark.frame] at fits
    omega

end Expr.Compiled

end BacktrackRegex
