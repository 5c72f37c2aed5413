import BacktrackRegex.Proofs.Stretches

/-! An order of the nodes of a compiled expression. Links lead down the order and to as many loops
at most, but for those that begin an iteration: they lead into a loop. Nodes after an expression
rank below it, those of a loop's body between its tail and the loop. -/
namespace BacktrackRegex

structure Order where
  rank : Nat → Nat
  around : Nat → List Nat

namespace Order

def put (o : Order) (id rank : Nat) (around : List Nat) : Order where
  rank m := if m = id then rank else o.rank m
  around m := if m = id then around else o.around m

variable {o : Order} {id m rank : Nat} {around : List Nat}

@[simp]
theorem put_rank_self : (o.put id rank around).rank id = rank := by
  simp [put]

@[simp]
theorem put_around_self : (o.put id rank around).around id = around := by
  simp [put]

def Same (o o' : Order) (m : Nat) : Prop := o'.rank m = o.rank m ∧ o'.around m = o.around m

theorem put_same (other : m ≠ id) : Same o (o.put id rank around) m := by
  simp [Same, put, other]

theorem Same.trans {o₁ o₂ : Order} (first : Same o o₁ m) (second : Same o₁ o₂ m) : Same o o₂ m := by
  obtain ⟨rank, around⟩ := first
  obtain ⟨rank', around'⟩ := second
  exact ⟨rank'.trans rank, around'.trans around⟩

structure Above (o : Order) (m y : Nat) : Prop where
  rank : o.rank y < o.rank m
  around : o.around y <:+ o.around m

end Order

namespace Graph

def exits (g : Graph) : Node → List NodeId
  | .loop l => [l.next]
  | .loopTail owner => (g.ownedLoop? owner).elim [] ([·.next])
  | n => g.links n

def loop? (g : Graph) : Node → Option Loop
  | .loop l => some l
  | .loopTail owner => g.ownedLoop? owner
  | _ => none

theorem exits_links {g : Graph} {n : Node} {y : NodeId} (member : y ∈ g.exits n) :
    y ∈ g.links n := by
  cases n <;> simp_all [exits, links]
  cases h : g.ownedLoop? _ <;> simp_all

theorem body_links {g : Graph} {n : Node} {l : Loop} (repeats : g.loop? n = some l) :
    l.body ∈ g.links n := by
  cases n <;> simp_all [loop?, links]

end Graph

/-- The place of a node is in order: it lies above where it leads, begins iterations of a loop that
it lies above or at the end of, and no register that it writes or encloses belongs to a loop around
it. -/
structure Ordered (g : Graph) (o : Order) (m : Nat) (n : Node) : Prop where
  exits : ∀ y ∈ g.exits n, o.Above m y
  enters : ∀ l, n = .loop l → o.rank l.body < o.rank m ∧ o.around l.body = l.slot :: o.around m
  again : ∀ owner l, n = .loopTail owner → g.ownedLoop? owner = some l →
    o.around l.body = o.around m ∧ l.slot ∈ o.around m
  own : ∀ k, (∀ owner, n ≠ .loopTail owner) → g.slot? n = some k → k ∉ o.around m
  apart : ∀ branches inner, n.enclosed? = some (branches, inner) →
    ∀ k ∈ o.around m, inner.slots.contains k = false

namespace Ordered

variable {g : Graph} {o : Order} {m : Nat} {n : Node}

theorem same {o' : Order} (ordered : Ordered g o m n) (here : o.Same o' m)
    (links : ∀ y ∈ g.links n, o.Same o' y) : Ordered g o' m n := by
  constructor
  case exits =>
    intro y member
    have above := ordered.exits y member
    have there := links y (Graph.exits_links member)
    exact ⟨by rw [here.1, there.1]; exact above.rank, by rw [here.2, there.2]; exact above.around⟩
  case enters =>
    intro l loop
    have there := links l.body (Graph.body_links (by simp [loop, Graph.loop?]))
    rw [here.1, here.2, there.1, there.2]
    exact ordered.enters l loop
  case again =>
    intro owner l tail owned
    have there := links l.body (Graph.body_links (by simp [tail, Graph.loop?, owned]))
    rw [here.2, there.2]
    exact ordered.again owner l tail owned
  case own =>
    intro k notTail written
    exact here.2 ▸ ordered.own k notTail written
  case apart =>
    intro branches inner enclosed
    exact here.2 ▸ ordered.apart branches inner enclosed

theorem plain (exits : ∀ y ∈ g.links n, o.Above m y) (slotless : g.slot? n = none)
    (loopless : g.loop? n = none) (opened : n.enclosed? = none) : Ordered g o m n := by
  constructor
  case exits =>
    intro y member
    exact exits y (Graph.exits_links member)
  case enters =>
    intro l loop
    simp [loop, Graph.loop?] at loopless
  case again =>
    intro owner l tail owned
    simp [tail, Graph.loop?, owned] at loopless
  case own =>
    intro k _ written
    simp [slotless] at written
  case apart =>
    intro branches inner enclosed
    simp [opened] at enclosed

end Ordered

structure Base (o : Order) (a : Mark) (next base : Nat) : Prop where
  before : next < a.node
  succeed : Node.succeedId < a.node
  rank : o.rank next < base
  bottom : o.rank Node.succeedId < base
  free : o.around Node.succeedId = []
  fresh : ∀ k ∈ o.around next, k < a.slot

structure Ranked (g : Graph) (o : Order) (a b : Mark) (next base : Nat) (o' : Order) : Prop where
  same : ∀ m, m < a.node ∨ b.node ≤ m → o.Same o' m
  rank : ∀ m, a.node ≤ m → m < b.node → base ≤ o'.rank m ∧ o'.rank m < base + (b.node - a.node)
  deep : ∀ m, a.node ≤ m → m < b.node →
    (o'.around m).length ≤ (o.around next).length + (b.node - a.node)
  ordered : ∀ m n, a.node ≤ m → m < b.node → g.nodes[m]? = some n → Ordered g o' m n

namespace Ranked

variable {g : Graph} {o o₁ o₂ : Order} {a b c : Mark} {next next' base : Nat}

theorem nothing (o : Order) (a : Mark) (next base : Nat) : Ranked g o a a next base o := by
  refine ⟨fun _ _ => ⟨rfl, rfl⟩, ?_, ?_, ?_⟩ <;> omega

theorem single {n : Node} {slot : Nat} (next : Nat) (here : g.nodes[a.node]? = some n)
    (ordered : Ordered g (o.put a.node base (o.around next)) a.node n) :
    Ranked g o a ⟨a.node + 1, slot⟩ next base (o.put a.node base (o.around next)) := by
  constructor
  case same =>
    intro m outside
    exact Order.put_same (by dsimp only at outside; omega)
  case rank =>
    intro m low high
    obtain rfl : m = a.node := by dsimp only at high; omega
    simp
  case deep =>
    intro m low high
    obtain rfl : m = a.node := by dsimp only at high; omega
    simp
  case ordered =>
    intro m n' low high node
    obtain rfl : m = a.node := by dsimp only at high; omega
    cases here.symm.trans node
    exact ordered

theorem append (first : Ranked g o a b next base o₁)
    (second : Ranked g o₁ b c next' (base + (b.node - a.node)) o₂)
    (links : ∀ m n, a.node ≤ m → m < b.node → g.nodes[m]? = some n → ∀ y ∈ g.links n, y < b.node)
    (around : o₁.around next' = o.around next) (le : a.node ≤ b.node) (le' : b.node ≤ c.node) :
    Ranked g o a c next base o₂ := by
  constructor
  case same =>
    intro m outside
    exact (first.same m (by omega)).trans (second.same m (by omega))
  case rank =>
    intro m low high
    rcases Nat.lt_or_ge m b.node with inside | above
    · have := first.rank m low inside
      rw [(second.same m (.inl inside)).1]
      omega
    · have := second.rank m above high
      omega
  case deep =>
    intro m low high
    rcases Nat.lt_or_ge m b.node with inside | above
    · have := first.deep m low inside
      rw [(second.same m (.inl inside)).2]
      omega
    · have := second.deep m above high
      rw [around] at this
      omega
  case ordered =>
    intro m n low high node
    rcases Nat.lt_or_ge m b.node with inside | above
    · exact (first.ordered m n low inside node).same (second.same m (.inl inside))
        fun y member => second.same y (.inl (links m n low inside node y member))
    · exact second.ordered m n above high node

theorem around_next (ranked : Ranked g o a b next base o₁) (base_ : Base o a next base) :
    o₁.around next = o.around next := by
  obtain ⟨_, around⟩ := ranked.same next (.inl base_.before)
  exact around

theorem rank_lt (ranked : Ranked g o a b next base o₁) (under : Base o a next base) {id : Nat}
    (entered : id = next ∨ (a.node ≤ id ∧ id < b.node)) :
    o₁.rank id < base + (b.node - a.node) := by
  rcases entered with rfl | ⟨low, high⟩
  · have := under.rank
    rw [(ranked.same id (.inl under.before)).1]
    omega
  · exact (ranked.rank id low high).2

end Ranked

theorem Order.Above.put {o : Order} {m y rank : Nat} {around : List Nat} (other : y ≠ m)
    (low : o.rank y < rank) (suffix : o.around y <:+ around) :
    (o.put m rank around).Above m y := by
  have there : o.Same (o.put m rank around) y := put_same other
  exact ⟨by rw [there.1, put_rank_self]; exact low,
    by rw [there.2, put_around_self]; exact suffix⟩

theorem Base.later {g : Graph} {o o' : Order} {a b : Mark} {next base id : Nat}
    (under : Base o a next base) (ranked : Ranked g o a b next base o')
    (entered : id = next ∨ (a.node ≤ id ∧ id < b.node)) (around : o'.around id = o.around next)
    (nodes : a.node ≤ b.node) (slots : a.slot ≤ b.slot) :
    Base o' b id (base + (b.node - a.node)) := by
  constructor
  case before => have := under.before; omega
  case succeed => exact Nat.lt_of_lt_of_le under.succeed nodes
  case rank => exact ranked.rank_lt under entered
  case bottom =>
    have := under.bottom
    rw [(ranked.same _ (.inl under.succeed)).1]
    omega
  case free => exact (ranked.same _ (.inl under.succeed)).2.trans under.free
  case fresh =>
    intro k member
    have := under.fresh k (around ▸ member)
    omega

theorem Placed.links_lt {g : Graph} {o : Order} {a b : Mark} {next base : Nat} {f : Frame}
    {n : Node} (placed : Placed g (a.Within b next) f n) (under : Base o a next base)
    (nodes : a.node ≤ b.node) : ∀ y ∈ g.links n, y < b.node := by
  intro y member
  rcases placed.links y member with ⟨_, high⟩ | rfl | rfl
  · exact high
  · exact Nat.lt_of_lt_of_le under.before nodes
  · exact Nat.lt_of_lt_of_le under.succeed nodes

theorem Expr.leafNode_plain {g : Graph} {e : Expr} {next : NodeId} {n : Node}
    (single : e.leafNode? next = some n) : g.links n = [next] ∧ g.slot? n = none ∧
      g.loop? n = none ∧ n.enclosed? = none := by
  revert single
  fun_cases leafNode? e next <;> intro single <;> cases single <;> exact ⟨rfl, rfl, rfl, rfl⟩

variable {g : Graph}

theorem Ordered.tail {o : Order} {m slot cap : Nat} {kind : GroupKind} {next : NodeId}
    (after : o.Above m next) : Ordered g o m (kind.tail slot cap next) := by
  cases kind <;> exact .plain (by simp [GroupKind.tail, Graph.links, after]) rfl rfl rfl

theorem Ordered.head {o : Order} {m slot cap : Nat} {kind : GroupKind} {branches : List NodeId}
    {inner : Frame} {next : NodeId} (after : o.Above m next) (entries : ∀ b ∈ branches, o.Above m b)
    (own : slot ∉ o.around m) (apart : ∀ k ∈ o.around m, inner.slots.contains k = false) :
    Ordered g o m (kind.head slot cap branches inner next) := by
  constructor
  case exits => cases kind <;> simpa [GroupKind.head, Graph.exits, Graph.links, after] using entries
  case enters => cases kind <;> simp [GroupKind.head]
  case again => cases kind <;> simp [GroupKind.head]
  case own => cases kind <;> simpa [GroupKind.head, Graph.slot?] using own
  case apart =>
    cases kind with
    | capture | nonCapture => simp [GroupKind.head, Node.enclosed?]
    | _ => simpa [GroupKind.head, Node.enclosed?] using apart

theorem Ordered.loop {o : Order} {m : Nat} {l : Loop} (after : o.Above m l.next)
    (body : o.rank l.body < o.rank m) (around : o.around l.body = l.slot :: o.around m)
    (own : l.slot ∉ o.around m) : Ordered g o m (.loop l) := by
  constructor
  case exits => simpa [Graph.exits] using after
  case enters => rintro _ ⟨⟩; exact ⟨body, around⟩
  case again => simp
  case own => simpa [Graph.slot?] using own
  case apart => simp [Node.enclosed?]

theorem Ordered.loopTail {o : Order} {m owner : Nat} {l : Loop}
    (owned : g.ownedLoop? owner = some l) (after : o.Above m l.next)
    (around : o.around l.body = o.around m) (inside : l.slot ∈ o.around m) :
    Ordered g o m (.loopTail owner) := by
  constructor
  case exits => simpa [Graph.exits, owned] using after
  case enters => simp
  case again =>
    rintro _ l' ⟨⟩ owned'
    cases owned.symm.trans owned'
    exact ⟨around, inside⟩
  case own =>
    intro k notTail
    exact absurd rfl (notTail owner)
  case apart => simp [Node.enclosed?]

def Order.aroundLoop (o : Order) (a b : Mark) (next base : Nat) : Order :=
  (o.put (a.node + 1) base (a.slot :: o.around next)).put a.node (base + (b.node - a.node) - 1)
    (o.around next)

section Loops

variable {o o₁ : Order} {a b : Mark} {next base m : Nat}

theorem Order.aroundLoop_same (other : m ≠ a.node) (other' : m ≠ a.node + 1) :
    o.Same (o.aroundLoop a b next base) m := by
  unfold aroundLoop
  exact (put_same other').trans (put_same other)

theorem Order.aroundLoop_tail : (o.aroundLoop a b next base).rank (a.node + 1) = base ∧
    (o.aroundLoop a b next base).around (a.node + 1) = a.slot :: o.around next := by
  simp [aroundLoop, put]

theorem Order.aroundLoop_loop :
    (o.aroundLoop a b next base).rank a.node = base + (b.node - a.node) - 1 ∧
      (o.aroundLoop a b next base).around a.node = o.around next := by
  simp [aroundLoop, put]

theorem Base.body (under : Base o a next base) :
    Base (o.aroundLoop a b next base) ⟨a.node + 2, a.slot + 1⟩ (a.node + 1) (base + 1) := by
  have zero := under.succeed
  have same : o.Same (o.aroundLoop a b next base) Node.succeedId :=
    Order.aroundLoop_same (Nat.ne_of_lt zero) (Nat.ne_of_lt (Nat.lt_succ_of_lt zero))
  refine ⟨Nat.lt_succ_self _, Nat.lt_add_right 2 zero, ?_, ?_, same.2.trans under.free, ?_⟩
  · rw [Order.aroundLoop_tail.1]
    exact Nat.lt_succ_self _
  · rw [same.1]
    exact Nat.lt_succ_of_lt under.bottom
  · intro k member
    rw [Order.aroundLoop_tail.2] at member
    rcases List.mem_cons.mp member with rfl | member
    · exact Nat.lt_succ_self _
    · exact Nat.lt_succ_of_lt (under.fresh k member)

theorem Ranked.loop {id min : Nat} {max : Option Nat} {greedy : Bool} (under : Base o a next base)
    (body : Ranked g (o.aroundLoop a b next base) ⟨a.node + 2, a.slot + 1⟩ b (a.node + 1)
      (base + 1) o₁)
    (here : g.nodes[a.node]? = some (.loop ⟨a.slot, id, min, max, greedy, next⟩))
    (tail : g.nodes[a.node + 1]? = some (.loopTail a.node)) (nodes : a.node + 2 ≤ b.node)
    (low : o₁.rank id < base + 1 + (b.node - (a.node + 2)))
    (around : o₁.around id = a.slot :: o.around next) :
    Ranked g o a b next base o₁ ∧ o₁.around a.node = o.around next := by
  have before := under.before
  have ⟨rankNext, aroundNext⟩ := (Order.aroundLoop_same (m := next) (by omega) (by omega)).trans
    (body.same next (.inl (by dsimp only; omega)))
  have ⟨rankLoop, aroundLoop⟩ := body.same a.node (.inl (by dsimp only; omega))
  have ⟨rankTail, aroundTail⟩ := body.same (a.node + 1) (.inl (Nat.lt_succ_self _))
  rw [Order.aroundLoop_loop.1] at rankLoop
  rw [Order.aroundLoop_loop.2] at aroundLoop
  rw [Order.aroundLoop_tail.1] at rankTail
  rw [Order.aroundLoop_tail.2] at aroundTail
  have above := under.rank
  have place (m) (low : a.node ≤ m) : m = a.node ∨ m = a.node + 1 ∨ a.node + 2 ≤ m := by omega
  refine ⟨⟨?_, ?_, ?_, ?_⟩, aroundLoop⟩
  · intro m outside
    exact (Order.aroundLoop_same (by omega) (by omega)).trans (body.same m (by dsimp only; omega))
  · intro m low high
    obtain rfl | rfl | above := place m low
    · omega
    · omega
    · have := body.rank m above high
      dsimp only at this
      omega
  · intro m low high
    obtain rfl | rfl | above := place m low
    · rw [aroundLoop]; omega
    · rw [aroundTail, List.length_cons]; omega
    · have := body.deep m above high
      rw [Order.aroundLoop_tail.2, List.length_cons] at this
      dsimp only at this
      omega
  · intro m n low high node
    obtain rfl | rfl | above := place m low
    · cases here.symm.trans node
      refine .loop ⟨by dsimp only; omega, ?_⟩ (by dsimp only; omega) ?_ ?_
      · have same := aroundNext.trans aroundLoop.symm
        exact same ▸ List.suffix_refl _
      · rw [around, aroundLoop]
      · rw [aroundLoop]
        exact fun member => Nat.lt_irrefl _ (under.fresh _ member)
    · cases tail.symm.trans node
      refine .loopTail (Graph.ownedLoop_iff.mpr here) ⟨by dsimp only; omega, ?_⟩ ?_ ?_
      · rw [aroundNext, aroundTail]
        exact List.suffix_cons _ _
      · rw [around, aroundTail]
      · rw [aroundTail]
        exact List.mem_cons_self
    · exact body.ordered m n above high node

end Loops

mutual
theorem Lowered.ranked (succeed : g.nodes[Node.succeedId]? = some .succeed)
    {e next cap a id b o base} : Lowered g.nodes e next cap a id b → Base o a next base →
      ∃ o', Ranked g o a b next base o' ∧ o'.around id = o.around next
  | .nothing _ => by
    intro _
    exact ⟨o, .nothing o a next base, rfl⟩
  | .leaf single here => by
    intro under
    have ⟨links, slotless, loopless, opened⟩ := Expr.leafNode_plain (g := g) single
    refine ⟨_, .single next here (.plain ?_ slotless loopless opened), Order.put_around_self⟩
    simp only [links, List.mem_singleton, forall_eq]
    exact .put (Nat.ne_of_lt under.before) under.rank (List.suffix_refl _)
  | .row lowered _ => lowered.ranked succeed
  | @Lowered.sequence _ _ _ _ _ _ id _ lowered _ here => by
    intro under
    obtain ⟨o₁, row, around⟩ := lowered.ranked succeed under
    have ⟨nodes, slots, entered⟩ := lowered.entered
    have atop := under.later row entered around nodes slots
    refine ⟨_, row.append (.single id here (.plain ?_ rfl rfl rfl)) ?_ around nodes
      (Nat.le_succ _), Order.put_around_self.trans around⟩
    · simp only [Graph.links, lowered.head, List.mem_singleton, forall_eq]
      exact .put (Nat.ne_of_lt atop.before) atop.rank (List.suffix_refl _)
    · exact fun m n low high node => (lowered.placed succeed low high node).links_lt under nodes
  | @Lowered.group _ _ kind _ _ _ a _ b bracket tail lowered head => by
    intro under
    have ⟨nodes, slots, entries⟩ := lowered.entered
    dsimp only at nodes slots entries
    have after : (o.put a.node base (o.around next)).Above a.node next :=
      .put (Nat.ne_of_lt under.before) under.rank (List.suffix_refl _)
    have first : Ranked g o a ⟨a.node + 1, a.slot + 1⟩ next base _ :=
      .single next tail (.tail after)
    have atop := under.later first (.inr ⟨Nat.le_refl _, Nat.lt_succ_self _⟩)
      Order.put_around_self (Nat.le_succ _) (Nat.le_succ _)
    obtain ⟨o₂, branches, around⟩ := lowered.ranked succeed atop
    have tailLinks : ∀ y ∈ g.links (kind.tail a.slot cap next), y < a.node + 1 := by
      intro y member
      cases kind <;>
        simp only [GroupKind.tail, Graph.links, List.mem_singleton, List.not_mem_nil] at member <;>
        exact member ▸ Nat.lt_succ_of_lt under.before
    have whole := first.append branches (fun m n low high node => by
      obtain rfl : m = a.node := by dsimp only at high; omega
      cases tail.symm.trans node
      exact tailLinks) Order.put_around_self (Nat.le_succ _) nodes
    have top := under.later whole (.inl rfl) (whole.around_next under) (by omega) (by omega)
    refine ⟨_, whole.append (.single next head (.head ?_ ?_ ?_ ?_)) ?_
      (whole.around_next under) (by omega) (Nat.le_succ _), ?_⟩
    · exact .put (Nat.ne_of_lt top.before) top.rank (List.suffix_refl _)
    · intro entry member
      have within := entries entry member
      have low := branches.rank_lt atop within
      have same := (around entry member).trans Order.put_around_self
      refine .put (by omega) (by dsimp only at low; omega) ?_
      rw [whole.around_next under]
      exact same ▸ List.suffix_refl _
    · rw [Order.put_around_self]
      exact fun member => Nat.lt_irrefl _ (under.fresh _ (whole.around_next under ▸ member))
    · intro k member
      rw [Order.put_around_self, whole.around_next under] at member
      have := under.fresh k member
      rw [← Bool.not_eq_true, Interval.contains_iff]
      dsimp only
      omega
    · intro m n low high node
      rcases Nat.lt_or_ge a.node m with above | bottom
      · exact (lowered.placed succeed above high node).links_lt atop nodes
      · obtain rfl : m = a.node := by omega
        cases tail.symm.trans node
        exact fun y member => Nat.lt_of_lt_of_le (tailLinks y member) nodes
    · exact Order.put_around_self.trans (whole.around_next under)
  | .leafLoop _ _ _ single leaf here => by
    intro under
    have ⟨links, slotless, loopless, opened⟩ := Expr.leafNode_plain (g := g) single
    have first : Ranked g o a ⟨a.node + 1, a.slot⟩ next base _ :=
      .single next leaf (.plain (by
        simp only [links, List.mem_singleton, forall_eq]
        exact .put (Nat.ne_of_lt under.succeed) under.bottom (by simp [under.free])) slotless
          loopless opened)
    have atop := under.later first (.inl rfl) (first.around_next under) (Nat.le_succ _)
      (Nat.le_refl _)
    refine ⟨_, first.append (.single next here (.plain ?_ rfl rfl rfl)) ?_
      (first.around_next under) (Nat.le_succ _) (Nat.le_succ _), ?_⟩
    · simp only [Graph.links, List.mem_singleton, forall_eq]
      exact .put (Nat.ne_of_lt atop.before) atop.rank (List.suffix_refl _)
    · intro m n low high node
      obtain rfl : m = a.node := by dsimp only at high; omega
      cases leaf.symm.trans node
      simp only [links, List.mem_singleton, forall_eq]
      exact Nat.lt_succ_of_lt under.succeed
    · exact Order.put_around_self.trans (first.around_next under)
  | .loop _ _ _ here tail lowered => by
    intro under
    have ⟨nodes, _, entered⟩ := lowered.entered
    obtain ⟨o₁, body, around⟩ := lowered.ranked succeed under.body
    rw [Order.aroundLoop_tail.2] at around
    exact ⟨o₁, body.loop under here tail nodes (body.rank_lt under.body entered) around⟩
theorem LoweredRow.ranked (succeed : g.nodes[Node.succeedId]? = some .succeed)
    {items next cap a children id b o base} :
    LoweredRow g.nodes items next cap a children id b → Base o a next base →
      ∃ o', Ranked g o a b next base o' ∧ o'.around id = o.around next
  | .nil => by
    intro _
    exact ⟨o, .nothing o a next base, rfl⟩
  | .cons later first => by
    intro under
    have before := later.entered
    obtain ⟨o₁, row, around⟩ := later.ranked succeed under
    obtain ⟨o₂, item, around'⟩ := first.ranked succeed
      (under.later row before.2.2 around before.1 before.2.1)
    refine ⟨o₂, row.append item (fun m n low high node => ?_) around before.1 first.entered.1,
      around'.trans around⟩
    exact (later.placed succeed low high node).links_lt under before.1
theorem LoweredBranches.ranked (succeed : g.nodes[Node.succeedId]? = some .succeed)
    {branches next cap a ids b o base} :
    LoweredBranches g.nodes branches next cap a ids b → Base o a next base →
      ∃ o', Ranked g o a b next base o' ∧ ∀ id ∈ ids, o'.around id = o.around next
  | .nil => by
    intro _
    exact ⟨o, .nothing o a next base, by simp⟩
  | .cons first later => by
    intro under
    have ⟨nodes, slots, _⟩ := first.entered
    obtain ⟨o₁, branch, around⟩ := first.ranked succeed under
    have atop := under.later branch (.inl rfl) (branch.around_next under) nodes slots
    obtain ⟨o₂, rest, around'⟩ := later.ranked succeed atop
    refine ⟨o₂, branch.append rest (fun m n low high node => ?_) (branch.around_next under) nodes
      later.entered.1, fun id member => ?_⟩
    · exact (first.placed succeed low high node).links_lt under nodes
    · rcases List.mem_cons.mp member with rfl | member
      · have := under.before
        have ⟨_, _, entered⟩ := first.entered
        exact (rest.same id (.inl (by omega))).2.trans around
      · exact (around' id member).trans (branch.around_next under)
end

/-- The nodes of a compiled expression can be ordered, with no more ranks than there are nodes. -/
theorem Expr.Compiled.ordered {e : Expr} (compiled : e.Compiled g) : ∃ o : Order,
    (∀ {id n}, g.nodes[id]? = some n → Ordered g o id n) ∧
      ∀ {id}, id < g.size → o.rank id < g.size ∧ (o.around id).length ≤ g.size := by
  have start : Base ⟨fun _ => 0, fun _ => []⟩ ⟨1, 0⟩ Node.succeedId 1 :=
    ⟨Nat.one_pos, Nat.one_pos, Nat.one_pos, Nat.one_pos, rfl, by simp⟩
  obtain ⟨o, ranked, _⟩ := compiled.lowered.ranked compiled.succeed start
  have zero := ranked.same 0 (.inl Nat.one_pos)
  have positive : 0 < g.size := (Array.getElem?_eq_some_iff.mp compiled.succeed).1
  refine ⟨o, fun {id n} node => ?_, fun {id} bound => ?_⟩
  · rcases Nat.eq_zero_or_pos id with rfl | inside
    · cases (Option.some.inj (node.symm.trans compiled.succeed))
      exact .plain (by simp [Graph.links]) rfl rfl rfl
    · exact ranked.ordered id n inside (Array.getElem?_eq_some_iff.mp node).1 node
  · rcases Nat.eq_zero_or_pos id with rfl | inside
    · rw [zero.1, zero.2]
      exact ⟨positive, Nat.zero_le _⟩
    · have rank := ranked.rank id inside bound
      have deep := ranked.deep id inside bound
      simp only [List.length_nil] at rank deep
      omega

end BacktrackRegex
