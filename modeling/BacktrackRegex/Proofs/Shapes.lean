import BacktrackRegex.Proofs.Stretches

/-! What the form of an expression says about the stretch it was lowered to. An expression is of one
form only: it leaves no node, or a leaf, or a group, or it is a row or a plain repetition. -/
namespace BacktrackRegex

namespace Expr

variable {e : Expr} {next : NodeId} {n : Node} {kind : GroupKind} {es : List Expr}

theorem isVoid_of_leafNode? (single : e.leafNode? next = some n) : e.isVoid = false := by
  revert single
  fun_cases leafNode? e next <;> intro single <;> cases single <;> simp_all [isVoid]

theorem isVoid_of_asGroup? (bracket : e.asGroup? = some (kind, es)) : e.isVoid = false := by
  obtain ⟨rfl, rfl⟩ | rfl | ⟨body, rfl, rfl⟩ | ⟨body, min, max, rfl, bounded, rfl, rfl⟩ :=
    asGroup?_cases bracket <;> simp_all [isVoid]

theorem leafNode?_of_asGroup? (bracket : e.asGroup? = some (kind, es)) :
    e.leafNode? next = none := by
  obtain ⟨rfl, rfl⟩ | rfl | ⟨body, rfl, rfl⟩ | ⟨body, min, max, rfl, _, rfl, rfl⟩ :=
    asGroup?_cases bracket <;> rfl

theorem asGroup?_plain (body : Expr) (min : Nat) (max : Option Nat) {kind : RepeatKind}
    (plain : kind ≠ .possessive) : (repetition body min max kind).asGroup? = none := by
  cases kind <;> first | rfl | contradiction

end Expr

namespace Lowered

variable {nodes : Array Node} {e : Expr} {next cap id : Nat} {a b : Mark}

theorem of_isVoid (void : e.isVoid = true) : Lowered nodes e next cap a id b → id = next ∧ b = a
  | .nothing _ => ⟨rfl, rfl⟩
  | .leaf single _ => by simp [Expr.isVoid_of_leafNode? single] at void
  | .row _ _ | .sequence _ _ _ => by simp [Expr.isVoid] at void
  | .group bracket _ _ _ => by simp [Expr.isVoid_of_asGroup? bracket] at void
  | .leafLoop bounded _ _ _ _ _ | .loop bounded _ _ _ _ _ => by
    simp [Expr.isVoid, bounded] at void

theorem of_leafNode? {n : Node} (single : e.leafNode? next = some n) :
    Lowered nodes e next cap a id b →
      nodes[a.node]? = some n ∧ id = a.node ∧ b = ⟨a.node + 1, a.slot⟩
  | .nothing void => by simp [Expr.isVoid_of_leafNode? single] at void
  | .leaf single' here => by
    cases single'.symm.trans single
    exact ⟨here, rfl, rfl⟩
  | .row _ _ | .sequence _ _ _ => by cases single
  | .group bracket _ _ _ => by simp [Expr.leafNode?_of_asGroup? bracket] at single
  | .leafLoop _ _ _ _ _ _ | .loop _ _ _ _ _ _ => by cases single

theorem of_concat {items : List Expr} :
    Lowered nodes (.concat items) next cap a id b →
      ∃ children entry c, LoweredRow nodes items next cap a children entry c ∧
        ((children.length ≤ 1 ∧ id = entry ∧ b = c) ∨
          (1 < children.length ∧ nodes[c.node]? = some (.sequence children next) ∧ id = c.node ∧
            b = ⟨c.node + 1, c.slot⟩))
  | .nothing void => by cases void
  | .leaf single _ => by cases single
  | .row lowered few => ⟨_, _, _, lowered, .inl ⟨few, rfl, rfl⟩⟩
  | .sequence lowered several here => ⟨_, _, _, lowered, .inr ⟨several, here, rfl, rfl⟩⟩
  | .group bracket _ _ _ => by cases bracket

theorem of_asGroup? {kind : GroupKind} {es : List Expr} (bracket : e.asGroup? = some (kind, es)) :
    Lowered nodes e next cap a id b → ∃ ids c,
      nodes[a.node]? = some (kind.tail a.slot cap next) ∧
      LoweredBranches nodes es a.node (kind.firstInner cap) ⟨a.node + 1, a.slot + 1⟩ ids c ∧
      nodes[c.node]? = some (kind.head a.slot cap ids
        ⟨⟨kind.firstInner cap, kind.firstInner cap + Expr.captureCountAll es⟩,
          ⟨a.slot + 1, c.slot⟩⟩ next) ∧ id = c.node ∧ b = ⟨c.node + 1, c.slot⟩
  | .nothing void => by simp [Expr.isVoid_of_asGroup? bracket] at void
  | .leaf single _ => by simp [Expr.leafNode?_of_asGroup? bracket] at single
  | .row _ _ | .sequence _ _ _ => by cases bracket
  | .group bracket' tail lowered head => by
    cases bracket.symm.trans bracket'
    exact ⟨_, _, tail, lowered, head, rfl, rfl⟩
  | .leafLoop _ plain _ _ _ _ | .loop _ plain _ _ _ _ => by
    simp [Expr.asGroup?_plain _ _ _ plain] at bracket

variable {body : Expr} {min : Nat} {max : Option Nat} {kind : RepeatKind}

theorem of_leafRepetition (bounded : max ≠ some 0) (plain : kind ≠ .possessive) {n : Node}
    (simple : body.isSimpleLeaf = true) (single : body.leafNode? Node.succeedId = some n) :
    Lowered nodes (.repetition body min max kind) next cap a id b →
      nodes[a.node]? = some n ∧
      nodes[a.node + 1]? = some (.leafLoop a.node min max (kind == .greedy) next) ∧
      id = a.node + 1 ∧ b = ⟨a.node + 2, a.slot⟩
  | .nothing void => by simp [Expr.isVoid, bounded] at void
  | .leaf single _ => by cases single
  | .group bracket _ _ _ => by simp [Expr.asGroup?_plain _ _ _ plain] at bracket
  | .leafLoop _ _ _ single' below here => by
    cases single'.symm.trans single
    exact ⟨below, here, rfl, rfl⟩
  | .loop _ _ complex _ _ _ => by simp [simple] at complex

theorem of_repetition (bounded : max ≠ some 0) (plain : kind ≠ .possessive)
    (complex : body.isSimpleLeaf = false) :
    Lowered nodes (.repetition body min max kind) next cap a id b → ∃ entry,
      nodes[a.node]? = some (.loop ⟨a.slot, entry, min, max, kind == .greedy, next⟩) ∧
      nodes[a.node + 1]? = some (.loopTail a.node) ∧
      Lowered nodes body (a.node + 1) cap ⟨a.node + 2, a.slot + 1⟩ entry b ∧ id = a.node
  | .nothing void => by simp [Expr.isVoid, bounded] at void
  | .leaf single _ => by cases single
  | .group bracket _ _ _ => by simp [Expr.asGroup?_plain _ _ _ plain] at bracket
  | .leafLoop _ _ simple _ _ _ => by simp [simple] at complex
  | .loop _ _ _ here tail lowered => ⟨_, here, tail, lowered, rfl⟩

end Lowered

end BacktrackRegex
