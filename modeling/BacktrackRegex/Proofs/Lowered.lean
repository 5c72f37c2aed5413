import BacktrackRegex.Lowering

/-! What lowering leaves in the arena. Each expression becomes a stretch of nodes and slots, made in
one go, of which the parts of the expression are stretches again. The nodes of a row are made from
the last item to the first, those of branches in their order. -/
namespace BacktrackRegex

/-- How far an arena is filled: the next node id and the next slot. -/
structure Mark where
  node : Nat
  slot : Nat

namespace Expr

def isVoid : Expr → Bool
  | empty => true
  | literal text _ => text == ""
  | repetition _ _ max _ => max == some 0
  | _ => false

def leafNode? : Expr → NodeId → Option Node
  | literal text ignoreCase, next =>
    if text = "" then none else some (.literal text ignoreCase next)
  | charClass members, next => some (.charClass members next)
  | anchor condition, next => some (.anchor condition next)
  | backReference n ignoreCase, next => some (.backReference n ignoreCase next)
  | _, _ => none

theorem leafNode?_literal (text : String) (ignoreCase : Bool) (next : NodeId) :
    (literal text ignoreCase).leafNode? next =
      if text = "" then none else some (.literal text ignoreCase next) := rfl

def asGroup? : Expr → Option (GroupKind × List Expr)
  | alternation branches => some (.nonCapture, branches)
  | group kind (alternation branches) => some (kind, branches)
  | group kind body => some (kind, [body])
  | repetition body min max .possessive =>
    if max = some 0 then none else some (.atomic, [repetition body min max .greedy])
  | _ => none

theorem asGroup?_cases {e : Expr} {kind : GroupKind} {es : List Expr}
    (bracket : e.asGroup? = some (kind, es)) :
    (e = alternation es ∧ kind = .nonCapture) ∨ e = group kind (alternation es) ∨
      (∃ body, e = group kind body ∧ es = [body]) ∨
      ∃ body min max, e = repetition body min max .possessive ∧ max ≠ some 0 ∧ kind = .atomic ∧
        es = [repetition body min max .greedy] := by
  revert bracket
  fun_cases asGroup? e <;> intro bracket <;> cases bracket
  · exact .inl ⟨rfl, rfl⟩
  · exact .inr (.inl rfl)
  · exact .inr (.inr (.inl ⟨_, rfl, rfl⟩))
  · next bounded => exact .inr (.inr (.inr ⟨_, _, _, rfl, bounded, rfl, rfl⟩))

end Expr

namespace GroupKind

def firstInner (kind : GroupKind) (cap : Nat) : Nat := if kind = .capture then cap + 1 else cap

def tail (kind : GroupKind) (slot cap : Nat) (next : NodeId) : Node :=
  match kind with
  | .capture => .groupEnd slot (some cap) next
  | .nonCapture => .groupEnd slot none next
  | .atomic | .lookAhead | .negativeLookAhead => .commit slot

def head (kind : GroupKind) (slot cap : Nat) (branches : List NodeId) (inner : Frame)
    (next : NodeId) : Node :=
  match kind with
  | .capture => .group slot (some cap) branches next
  | .nonCapture => .group slot none branches next
  | .atomic => .atomic slot branches inner next
  | .lookAhead => .lookAhead slot false branches inner next
  | .negativeLookAhead => .lookAhead slot true branches inner next

end GroupKind

mutual
/-- From one mark to another the arena holds the nodes of an expression that goes on at `next` and
is entered at `id`, with its captures numbered from `cap` on. -/
inductive Lowered (nodes : Array Node) :
    (e : Expr) → (next : Nat) → (cap : Nat) → Mark → (id : Nat) → Mark → Prop
  | nothing {e next cap a} (void : e.isVoid = true) : Lowered nodes e next cap a next a
  | leaf {e next cap a n} (single : e.leafNode? next = some n) (here : nodes[a.node]? = some n) :
      Lowered nodes e next cap a a.node ⟨a.node + 1, a.slot⟩
  | row {items next cap a children id b}
      (lowered : LoweredRow nodes items next cap a children id b) (few : children.length ≤ 1) :
      Lowered nodes (.concat items) next cap a id b
  | sequence {items next cap a children id b}
      (lowered : LoweredRow nodes items next cap a children id b) (several : 1 < children.length)
      (here : nodes[b.node]? = some (.sequence children next)) :
      Lowered nodes (.concat items) next cap a b.node ⟨b.node + 1, b.slot⟩
  | group {e kind branches next cap a ids b} (bracket : e.asGroup? = some (kind, branches))
      (tail : nodes[a.node]? = some (kind.tail a.slot cap next))
      (lowered : LoweredBranches nodes branches a.node (kind.firstInner cap)
        ⟨a.node + 1, a.slot + 1⟩ ids b)
      (head : nodes[b.node]? = some (kind.head a.slot cap ids
        ⟨⟨kind.firstInner cap, kind.firstInner cap + Expr.captureCountAll branches⟩,
          ⟨a.slot + 1, b.slot⟩⟩ next)) :
      Lowered nodes e next cap a b.node ⟨b.node + 1, b.slot⟩
  | leafLoop {body min max kind next cap a n} (bounded : max ≠ some 0)
      (plain : kind ≠ .possessive) (simple : body.isSimpleLeaf = true)
      (single : body.leafNode? Node.succeedId = some n) (leaf : nodes[a.node]? = some n)
      (here : nodes[a.node + 1]? = some (.leafLoop a.node min max (kind == .greedy) next)) :
      Lowered nodes (.repetition body min max kind) next cap a (a.node + 1)
        ⟨a.node + 2, a.slot⟩
  | loop {body min max kind next cap a id b} (bounded : max ≠ some 0)
      (plain : kind ≠ .possessive) (simple : body.isSimpleLeaf = false)
      (here : nodes[a.node]? = some (.loop ⟨a.slot, id, min, max, kind == .greedy, next⟩))
      (tail : nodes[a.node + 1]? = some (.loopTail a.node))
      (lowered : Lowered nodes body (a.node + 1) cap ⟨a.node + 2, a.slot + 1⟩ id b) :
      Lowered nodes (.repetition body min max kind) next cap a a.node b
inductive LoweredRow (nodes : Array Node) : (items : List Expr) → (next : Nat) → (cap : Nat) →
    Mark → (children : List Nat) → (entry : Nat) → Mark → Prop
  | nil {next cap a} : LoweredRow nodes [] next cap a [] next a
  | cons {item items next cap a children entry b id c}
      (later : LoweredRow nodes items next (cap + item.captureCount) a children entry b)
      (first : Lowered nodes item entry cap b id c) :
      LoweredRow nodes (item :: items) next cap a
        (if id = entry then children else id :: children) id c
inductive LoweredBranches (nodes : Array Node) : (branches : List Expr) → (next : Nat) →
    (cap : Nat) → Mark → (ids : List Nat) → Mark → Prop
  | nil {next cap a} : LoweredBranches nodes [] next cap a [] a
  | cons {branch branches next cap a id b ids c} (first : Lowered nodes branch next cap a id b)
      (later : LoweredBranches nodes branches next (cap + branch.captureCount) b ids c) :
      LoweredBranches nodes (branch :: branches) next cap a (id :: ids) c
end

def Draft.mark (d : Draft) : Mark := ⟨d.nodes.size, d.slots⟩

structure Draft.Adds (d d' : Draft) (made : Array Node → Prop) : Prop where
  grows : d.nodes.size ≤ d'.nodes.size
  kept : ∀ i < d.nodes.size, d'.nodes[i]? = d.nodes[i]?
  made : ∀ nodes : Array Node,
    (∀ i, d.nodes.size ≤ i → i < d'.nodes.size → nodes[i]? = d'.nodes[i]?) → made nodes

namespace Draft.Adds

variable {d d₁ d₂ : Draft} {P Q : Array Node → Prop}

theorem nothing (all : ∀ nodes, P nodes) : Adds d d P := by
  refine ⟨Nat.le_refl _, fun _ _ => rfl, ?_⟩
  intro nodes _
  exact all nodes

theorem imp (adds : Adds d d₁ P) (weaker : ∀ nodes, P nodes → Q nodes) : Adds d d₁ Q := by
  refine { adds with made := fun nodes same => ?_ }
  have made := adds.made nodes same
  exact weaker nodes made

theorem trans (first : Adds d d₁ P) (second : Adds d₁ d₂ Q) :
    Adds d d₂ fun nodes => P nodes ∧ Q nodes := by
  constructor
  case grows => exact Nat.le_trans first.grows second.grows
  case kept =>
    intro i old
    have := first.grows
    rw [second.kept i (by omega), first.kept i old]
  case made =>
    intro nodes same
    refine ⟨first.made nodes fun i low high => ?_, second.made nodes fun i low high => ?_⟩
    · have := second.grows
      rw [same i low (by omega), second.kept i high]
    · have := first.grows
      exact same i (by omega) high

theorem push (d : Draft) (n : Node) (slots : Nat) :
    Adds d ⟨d.nodes.push n, slots⟩ fun nodes => nodes[d.nodes.size]? = some n := by
  constructor
  case grows => simp
  case kept =>
    intro i old
    simp [Array.getElem?_push, Nat.ne_of_lt old]
  case made =>
    intro nodes same
    rw [same d.nodes.size (Nat.le_refl _) (by simp)]
    simp

end Draft.Adds

namespace Drafting

def Makes (x : Drafting α) (made : Array Node → Mark → α → Mark → Prop) : Prop :=
  ∀ d : Draft, d.Adds (x d).2 fun nodes => made nodes d.mark (x d).1 (x d).2.mark

theorem push_run (n : Node) (d : Draft) :
    push n d = (d.nodes.size, ⟨d.nodes.push n, d.slots⟩) := rfl

theorem group_run (kind : GroupKind) (captures : Nat) (next : NodeId) (cap : Nat)
    (branches : NodeId → Nat → Drafting (List NodeId)) (d : Draft) :
    group kind captures next cap branches d =
      let (ids, d₁) := branches d.nodes.size (kind.firstInner cap)
        ⟨d.nodes.push (kind.tail d.slots cap next), d.slots + 1⟩
      (d₁.nodes.size, ⟨d₁.nodes.push (kind.head d.slots cap ids
        ⟨⟨kind.firstInner cap, kind.firstInner cap + captures⟩, ⟨d.slots + 1, d₁.slots⟩⟩ next),
        d₁.slots⟩) := by
  cases kind <;> rfl

theorem group_makes {e : Expr} {kind : GroupKind} {es : List Expr}
    (bracket : e.asGroup? = some (kind, es)) (next : NodeId) (cap : Nat)
    {branches : NodeId → Nat → Drafting (List NodeId)}
    (makes : ∀ next cap, (branches next cap).Makes fun nodes =>
      LoweredBranches nodes es next cap) :
    (group kind (Expr.captureCountAll es) next cap branches).Makes fun nodes =>
      Lowered nodes e next cap := by
  intro d
  rw [group_run]
  have tail := Draft.Adds.push d (kind.tail d.slots cap next) (d.slots + 1)
  have inside := makes d.nodes.size (kind.firstInner cap)
    ⟨d.nodes.push (kind.tail d.slots cap next), d.slots + 1⟩
  generalize branches _ _ _ = result at inside ⊢
  obtain ⟨ids, d₁⟩ := result
  have head := Draft.Adds.push d₁ (kind.head d.slots cap ids
    ⟨⟨kind.firstInner cap, kind.firstInner cap + Expr.captureCountAll es⟩,
      ⟨d.slots + 1, d₁.slots⟩⟩ next) d₁.slots
  refine ((tail.trans inside).trans head).imp fun nodes ⟨⟨tail, inside⟩, head⟩ => ?_
  simp only [Draft.mark, Array.size_push] at inside ⊢
  exact .group (a := d.mark) (b := d₁.mark) bracket tail inside head

theorem loop_run (min : Nat) (max : Option Nat) (greedy : Bool) (next : NodeId)
    (body : NodeId → Drafting NodeId) (d : Draft) :
    loop false min max greedy next body d =
      let (id, d₁) := body (d.nodes.push .succeed).size
        ⟨(d.nodes.push .succeed).push (.loopTail d.nodes.size), d.slots + 1⟩
      (d.nodes.size, ⟨d₁.nodes.setIfInBounds d.nodes.size
        (.loop ⟨d.slots, id, min, max, greedy, next⟩), d₁.slots⟩) := rfl

theorem leafLoop_run (min : Nat) (max : Option Nat) (greedy : Bool) (next : NodeId)
    (body : NodeId → Drafting NodeId) (d : Draft) :
    loop true min max greedy next body d =
      let (id, d₁) := body Node.succeedId d
      (d₁.nodes.size, ⟨d₁.nodes.push (.leafLoop id min max greedy next), d₁.slots⟩) := rfl

theorem loop_makes {body : Expr} {max : Option Nat} {kind : RepeatKind} (bounded : max ≠ some 0)
    (plain : kind ≠ .possessive) (min : Nat) (next : NodeId) {cap : Nat}
    {lower : NodeId → Drafting NodeId}
    (makes : ∀ next, (lower next).Makes fun nodes => Lowered nodes body next cap)
    (single : body.isSimpleLeaf = true → ∃ n, body.leafNode? Node.succeedId = some n ∧
      lower Node.succeedId = push n) :
    (loop body.isSimpleLeaf min max (kind == .greedy) next lower).Makes fun nodes =>
      Lowered nodes (.repetition body min max kind) next cap := by
  intro d
  cases simple : body.isSimpleLeaf with
  | true =>
    obtain ⟨n, leaf, pushed⟩ := single simple
    rw [leafLoop_run, pushed, push_run]
    have first := Draft.Adds.push d n d.slots
    have second := Draft.Adds.push ⟨d.nodes.push n, d.slots⟩
      (.leafLoop d.nodes.size min max (kind == .greedy) next) d.slots
    refine (first.trans second).imp fun nodes ⟨first, second⟩ => ?_
    simp only [Array.size_push] at second
    simp only [Draft.mark, Array.size_push]
    exact .leafLoop (a := d.mark) bounded plain simple leaf first second
  | false =>
    rw [loop_run]
    have first := Draft.Adds.push d .succeed d.slots
    have second := Draft.Adds.push ⟨d.nodes.push .succeed, d.slots⟩ (.loopTail d.nodes.size)
      (d.slots + 1)
    have inside := makes (d.nodes.push .succeed).size
      ⟨(d.nodes.push .succeed).push (.loopTail d.nodes.size), d.slots + 1⟩
    generalize lower _ _ = result at inside ⊢
    obtain ⟨id, d₁⟩ := result
    have whole := (first.trans second).trans inside
    have grows := inside.grows
    simp only [Array.size_push] at grows
    refine ⟨by simpa using whole.grows, fun i old => ?_, fun nodes same => ?_⟩
    · simp only [Array.getElem?_setIfInBounds, Nat.ne_of_gt old, if_false]
      exact whole.kept i old
    · have here := same d.nodes.size (Nat.le_refl _) (by simp; omega)
      -- Only the loop's own node is replaced, so all others are as they were made.
      have rest (i) (low : d.nodes.size + 1 ≤ i) (high : i < d₁.nodes.size) :
          nodes[i]? = d₁.nodes[i]? := by
        rw [same i (by omega) (by simpa using high)]
        simp only [Array.getElem?_setIfInBounds, show ¬d.nodes.size = i by omega, if_false]
      have lowered := inside.made nodes fun i low high => rest i (by simp at low; omega) high
      have tail : nodes[d.nodes.size + 1]? = some (.loopTail d.nodes.size) := by
        rw [rest _ (Nat.le_refl _) (by omega), inside.kept _ (by simp)]
        have size : (d.nodes.push Node.succeed).size = d.nodes.size + 1 := Array.size_push _
        exact size ▸ Array.getElem?_push_size
      rw [Array.getElem?_setIfInBounds_self_of_lt (by omega)] at here
      simp only [Draft.mark, Array.size_push, Array.size_setIfInBounds] at lowered ⊢
      exact .loop (a := d.mark) bounded plain simple here tail lowered

end Drafting

namespace Expr

theorem leaf_makes {e : Expr} {next : NodeId} {cap : Nat} {n : Node}
    (single : e.leafNode? next = some n) :
    (Drafting.push n).Makes fun nodes => Lowered nodes e next cap := by
  intro d
  refine (Draft.Adds.push d n d.slots).imp fun nodes here => ?_
  simp only [Drafting.push_run, Draft.mark, Array.size_push]
  exact .leaf (a := d.mark) single here

theorem void_makes {e : Expr} {next : NodeId} {cap : Nat} (void : e.isVoid = true) :
    (pure next : Drafting NodeId).Makes fun nodes => Lowered nodes e next cap := by
  intro d
  apply Draft.Adds.nothing
  intro nodes
  exact .nothing void

theorem lower_simple {e : Expr} (simple : e.isSimpleLeaf = true) (next : NodeId) (cap : Nat) :
    ∃ n, e.leafNode? next = some n ∧ e.lower next cap = .push n := by
  cases e <;> simp_all [isSimpleLeaf, leafNode?, lower]

theorem branch_makes {e : Expr} {next : NodeId} {cap : Nat} {x : Drafting NodeId}
    (makes : x.Makes fun nodes => Lowered nodes e next cap) :
    (do return [← x] : Drafting (List NodeId)).Makes fun nodes =>
      LoweredBranches nodes [e] next cap := by
  intro d
  apply (makes d).imp
  intro nodes lowered
  exact .cons lowered .nil

theorem captureCountAll_singleton (e : Expr) : captureCountAll [e] = e.captureCount := by
  simp [captureCountAll]

mutual
theorem lower_makes : ∀ (e : Expr) (next : NodeId) (cap : Nat),
    (e.lower next cap).Makes fun nodes => Lowered nodes e next cap
  | empty, next, cap => void_makes rfl
  | literal text ignoreCase, next, cap => by
    unfold lower
    split
    · next void => exact void_makes (by simp [isVoid, void])
    · next text => exact leaf_makes (by simp [leafNode?, text])
  | charClass members, next, cap => leaf_makes rfl
  | anchor condition, next, cap => leaf_makes rfl
  | backReference n ignoreCase, next, cap => leaf_makes rfl
  | concat items, next, cap => by
    intro d
    have row := lowerItems_makes items next cap d
    have run : (concat items).lower next cap d =
        let ((children, _), d₁) := lowerItems items next cap d
        Drafting.sequence children next d₁ := rfl
    rw [run]
    generalize lowerItems items next cap d = result at row ⊢
    obtain ⟨⟨children, entry⟩, d₁⟩ := result
    match children with
    | [] =>
      refine row.imp fun nodes ⟨lowered, entered⟩ => ?_
      cases entered
      exact .row lowered (by simp)
    | [child] =>
      refine row.imp fun nodes ⟨lowered, entered⟩ => ?_
      cases entered
      exact .row lowered (by simp)
    | first :: second :: rest =>
      refine (row.trans (.push d₁ (.sequence (first :: second :: rest) next) d₁.slots)).imp
        fun nodes ⟨⟨lowered, _⟩, here⟩ => ?_
      simp only [Drafting.sequence, Drafting.push_run, Draft.mark, Array.size_push]
      exact .sequence (b := d₁.mark) lowered (by simp) here
  | alternation branches, next, cap => by
    have inside := lowerBranches_makes branches
    exact Drafting.group_makes rfl next cap inside
  | group kind body, next, cap => by
    have inside (tail cap) := branch_makes (lower_makes body tail cap)
    have single (bracket : (group kind body).asGroup? = some (kind, [body])) :=
      captureCountAll_singleton body ▸ Drafting.group_makes bracket next cap inside
    cases body with
    | alternation branches => exact Drafting.group_makes rfl next cap (lowerBranches_makes branches)
    | _ => exact single rfl
  | repetition body min max kind, next, cap => by
    unfold lower
    split
    · next never => exact void_makes (by simp [isVoid, never])
    · next bounded =>
      have loop (kind : RepeatKind) (plain : kind ≠ .possessive) (next : NodeId) (cap : Nat) :=
        Drafting.loop_makes bounded plain min next
          (fun next => lower_makes body next cap)
          (fun simple => lower_simple simple Node.succeedId cap)
      cases kind with
      | greedy => exact loop .greedy (by simp) next cap
      | reluctant => exact loop .reluctant (by simp) next cap
      | possessive =>
        have bracket : (repetition body min max .possessive).asGroup? =
            some (.atomic, [repetition body min max .greedy]) := if_neg bounded
        have inside (tail cap) := branch_makes (loop .greedy (by simp) tail cap)
        exact captureCountAll_singleton (repetition body min max .greedy) ▸
          Drafting.group_makes bracket next cap inside
theorem lowerItems_makes : ∀ (items : List Expr) (next : NodeId) (cap : Nat),
    (lowerItems items next cap).Makes fun nodes a row b =>
      LoweredRow nodes items next cap a row.1 row.2 b ∧ row.2 = row.1.head?.getD next
  | [], next, cap => by
    intro d
    apply Draft.Adds.nothing
    intro nodes
    exact ⟨.nil, rfl⟩
  | item :: items, next, cap => by
    intro d
    have later := lowerItems_makes items next (cap + item.captureCount) d
    have run : lowerItems (item :: items) next cap d =
        let ((children, entry), d₁) := lowerItems items next (cap + item.captureCount) d
        let (id, d₂) := item.lower entry cap d₁
        (if id = entry then (children, entry) else (id :: children, id), d₂) := rfl
    rw [run]
    generalize lowerItems items next (cap + item.captureCount) d = result at later ⊢
    obtain ⟨⟨children, entry⟩, d₁⟩ := result
    have first := lower_makes item entry cap d₁
    dsimp only at later first ⊢
    generalize item.lower entry cap d₁ = result at first ⊢
    obtain ⟨id, d₂⟩ := result
    refine (later.trans first).imp fun nodes ⟨⟨row, entered⟩, first⟩ => ?_
    have lowered := LoweredRow.cons row first
    by_cases same : id = entry
    · simp only [same, if_true] at lowered ⊢
      exact ⟨lowered, entered⟩
    · simp only [same, if_false] at lowered ⊢
      exact ⟨lowered, rfl⟩
theorem lowerBranches_makes : ∀ (branches : List Expr) (next : NodeId) (cap : Nat),
    (lowerBranches branches next cap).Makes fun nodes => LoweredBranches nodes branches next cap
  | [], next, cap => by
    intro d
    apply Draft.Adds.nothing
    intro nodes
    exact .nil
  | branch :: branches, next, cap => by
    intro d
    have first := lower_makes branch next cap d
    have later := lowerBranches_makes branches next (cap + branch.captureCount)
      (branch.lower next cap d).2
    apply (first.trans later).imp
    intro nodes ⟨first, later⟩
    exact .cons first later
end

theorem compile_of_check {e : Expr} (checked : e.check e.captureCount = .ok ()) :
    ∃ g, e.compile = .ok g := by
  simp only [compile, checked, bind, Except.bind]
  exact ⟨_, rfl⟩

structure Compiled (e : Expr) (g : Graph) : Prop where
  checked : e.check e.captureCount = .ok ()
  succeed : g.nodes[Node.succeedId]? = some .succeed
  lowered : Lowered g.nodes e Node.succeedId 1 ⟨1, 0⟩ g.entry ⟨g.size, g.slots⟩
  captures : g.captures = e.captureCount
  leadByte : g.leadByte = Node.leadByte? g.nodes g.size g.entry

theorem compile_compiled {e : Expr} {g : Graph} (ok : e.compile = .ok g) : e.Compiled g := by
  simp only [compile] at ok
  cases checked : e.check e.captureCount with
  | error defect => rw [checked] at ok; cases ok
  | ok _ =>
    rw [checked] at ok
    cases ok
    have adds := lower_makes e Node.succeedId 1 ⟨#[.succeed], 0⟩
    exact {
      checked
      succeed := adds.kept 0 (by simp)
      lowered := adds.made _ fun _ _ _ => rfl
      captures := rfl
      leadByte := rfl }

end Expr

end BacktrackRegex
