import BacktrackRegex.Proofs.Contexts
import BacktrackRegex.Proofs.Parallel

/-! Repetitions of what never leaves its place. A second iteration never begins, so any bounds that
allow one iteration may be brought down to one, wherever the repetition stands: matching takes the
same steps, and ends in the same way under any limits. -/
namespace BacktrackRegex

namespace Expr

mutual
/-- Whether an expression is made from empty texts, anchors and lookaheads, so that it matches
nothing but empty texts. -/
def isZeroWidth : Expr → Bool
  | empty | anchor _ => true
  | literal text _ => text == ""
  | charClass _ | backReference _ _ => false
  | concat items => areZeroWidth items
  | alternation branches => areZeroWidth branches
  | group .lookAhead _ | group .negativeLookAhead _ => true
  | group .capture body | group .nonCapture body | group .atomic body => body.isZeroWidth
  | repetition body _ _ _ => body.isZeroWidth
def areZeroWidth : List Expr → Bool
  | [] => true
  | e :: es => e.isZeroWidth && areZeroWidth es
end

theorem isZeroWidth_of_isSimpleLeaf {e : Expr} (simple : e.isSimpleLeaf = true) :
    e.isZeroWidth = false := by
  cases e <;> simp_all [isZeroWidth, isSimpleLeaf]

theorem areZeroWidth_of_asGroup? {e : Expr} {kind : GroupKind} {es : List Expr}
    (bracket : e.asGroup? = some (kind, es)) (still : e.isZeroWidth = true) :
    kind = .lookAhead ∨ kind = .negativeLookAhead ∨ areZeroWidth es = true := by
  obtain ⟨rfl, rfl⟩ | rfl | ⟨body, rfl, rfl⟩ | ⟨body, min, max, rfl, _, rfl, rfl⟩ :=
    asGroup?_cases bracket
  · exact .inr (.inr still)
  · cases kind <;> simp_all [isZeroWidth]
  · cases kind <;> simp_all [isZeroWidth, areZeroWidth]
  · simp_all [isZeroWidth, areZeroWidth]

theorem leafEnd_still {g : Graph} {t : Text} {e : Expr} {next id p q : Nat} {n : Node}
    {s : MatchState} (single : e.leafNode? next = some n) (node : g.nodes[id]? = some n)
    (still : e.isZeroWidth = true) (ended : g.leafEnd t s id p = .ok (some q)) : q = p := by
  cases e with
  | anchor condition =>
    cases single
    simp only [Graph.leafEnd, Graph.node_success.mpr node, ok_bind] at ended
    obtain ⟨holds, _, ended⟩ := bind_success ended
    cases holds <;> cases ended
    rfl
  | literal text ignoreCase =>
    rw [leafNode?_literal, if_pos (by simpa [isZeroWidth] using still)] at single
    cases single
  | charClass | backReference => cases still
  | _ => cases single

inductive Rebound (body : Expr) :
    (min : Nat) → (max : Option Nat) → (min' : Nat) → (max' : Option Nat) → Prop
  | kept {min max} : Rebound body min max min max
  | once {min max} (still : body.isZeroWidth = true) (room : ∀ m, max = some m → 1 ≤ m ∧ min ≤ m) :
      Rebound body min max (min.min 1) (some 1)

mutual
/-- The second expression is the first with other bounds for some of its repetitions of zero width.
-/
inductive Collapses : Expr → Expr → Prop
  | empty : Collapses empty empty
  | literal {text ignoreCase} : Collapses (literal text ignoreCase) (literal text ignoreCase)
  | charClass {members} : Collapses (charClass members) (charClass members)
  | anchor {condition} : Collapses (anchor condition) (anchor condition)
  | backReference {n ignoreCase} :
      Collapses (backReference n ignoreCase) (backReference n ignoreCase)
  | concat {items items'} (parts : CollapsesAll items items') :
      Collapses (concat items) (concat items')
  | alternation {branches branches'} (parts : CollapsesAll branches branches') :
      Collapses (alternation branches) (alternation branches')
  | group {kind body body'} (inner : Collapses body body') :
      Collapses (group kind body) (group kind body')
  | repetition {body body' min max min' max' kind} (inner : Collapses body body')
      (bounds : Rebound body min max min' max') :
      Collapses (repetition body min max kind) (repetition body' min' max' kind)
inductive CollapsesAll : List Expr → List Expr → Prop
  | nil : CollapsesAll [] []
  | cons {e e' es es'} (first : Collapses e e') (later : CollapsesAll es es') :
      CollapsesAll (e :: es) (e' :: es')
end

mutual
theorem Collapses.refl : ∀ e, Collapses e e
  | .empty => .empty
  | .literal _ _ => .literal
  | .charClass _ => .charClass
  | .anchor _ => .anchor
  | .backReference _ _ => .backReference
  | .concat items => .concat (CollapsesAll.refl items)
  | .alternation branches => .alternation (CollapsesAll.refl branches)
  | .group _ body => .group (Collapses.refl body)
  | .repetition body _ _ _ => .repetition (Collapses.refl body) .kept
theorem CollapsesAll.refl : ∀ es, CollapsesAll es es
  | [] => .nil
  | e :: es => .cons (Collapses.refl e) (CollapsesAll.refl es)
end

theorem CollapsesAll.around {e e' : Expr} (collapses : Collapses e e') (before after : List Expr) :
    CollapsesAll (before ++ e :: after) (before ++ e' :: after) := by
  induction before with
  | nil => exact .cons collapses (.refl after)
  | cons first before ih => exact .cons (.refl first) ih

theorem Collapses.fill {e e' : Expr} (collapses : Collapses e e') (c : Context) :
    Collapses (c.fill e) (c.fill e') := by
  induction c with
  | here => exact collapses
  | item before inner after ih => exact .concat (.around ih before after)
  | branch before inner after ih => exact .alternation (.around ih before after)
  | group kind inner ih => exact .group ih
  | repetition inner min max kind ih => exact .repetition ih .kept

namespace Rebound

variable {body : Expr} {min min' : Nat} {max max' : Option Nat}

theorem never (bounds : Rebound body min max min' max') : max' = some 0 ↔ max = some 0 := by
  cases bounds with
  | kept => rfl
  | once _ room => exact ⟨fun no => by simp at no, fun never => by simpa using (room 0 never).1⟩

theorem required (bounds : Rebound body min max min' max') : 0 < min' ↔ 0 < min := by
  cases bounds with
  | kept => rfl
  | once => exact ⟨fun low => (Nat.lt_min.mp low).1, fun low => Nat.lt_min.mpr ⟨low, Nat.one_pos⟩⟩

theorem room (bounds : Rebound body min max min' max') (bounded : max ≠ some 0) :
    belowMax 0 max' = belowMax 0 max := by
  cases bounds with
  | kept => rfl
  | once => cases max <;> simp_all [belowMax, Nat.pos_iff_ne_zero]

theorem fixed (bounds : Rebound body min max min' max') :
    body.isZeroWidth = true ∨ (min' = min ∧ max' = max) := by
  cases bounds with
  | kept => exact .inr ⟨rfl, rfl⟩
  | once still => exact .inl still

end Rebound

mutual
theorem Collapses.captureCount {e e' : Expr} : Collapses e e' → e'.captureCount = e.captureCount
  | .empty | .literal | .charClass | .anchor | .backReference => rfl
  | .concat parts | .alternation parts => by
    simpa only [Expr.captureCount] using parts.captureCount
  | .group inner => by simp only [Expr.captureCount, inner.captureCount]
  | .repetition inner _ => by simpa only [Expr.captureCount] using inner.captureCount
theorem CollapsesAll.captureCount {es es' : List Expr} :
    CollapsesAll es es' → captureCountAll es' = captureCountAll es
  | .nil => rfl
  | .cons first later => by simp only [captureCountAll, first.captureCount, later.captureCount]
end

mutual
theorem Collapses.check {e e' : Expr} (captures : Nat) :
    Collapses e e' → e'.check captures = e.check captures
  | .empty | .literal | .charClass | .anchor | .backReference => rfl
  | .concat parts => by simp only [Expr.check, parts.check]
  | .alternation parts => by
    rw [Expr.check, Expr.check, parts.check]
    cases parts <;> rfl
  | .group inner => by simp only [Expr.check, inner.check]
  | @Collapses.repetition _ _ min max _ _ _ inner bounds => by
    cases bounds with
    | kept => cases max <;> simp only [Expr.check, inner.check]
    | once _ room =>
      have least : ¬1 < min.min 1 := Nat.not_lt.mpr (Nat.min_le_right min 1)
      cases max with
      | none => simp only [Expr.check, inner.check, least, if_false]
      | some m =>
        have fits : ¬m < min := Nat.not_lt.mpr (room m rfl).2
        simp only [Expr.check, inner.check, least, fits, if_false]
theorem CollapsesAll.check {es es' : List Expr} (captures : Nat) :
    CollapsesAll es es' → checkAll captures es' = checkAll captures es
  | .nil => rfl
  | .cons first later => by simp only [checkAll, first.check, later.check]
end

namespace Collapses

variable {e e' : Expr}

theorem isVoid (collapses : Collapses e e') : e'.isVoid = e.isVoid := by
  cases collapses with
  | repetition _ bounds => simp only [Expr.isVoid, Bool.beq_eq_decide_eq, bounds.never]
  | _ => rfl

theorem of_leafNode? {next : NodeId} {n : Node} (collapses : Collapses e e')
    (single : e.leafNode? next = some n) : e'.leafNode? next = some n := by
  cases collapses with
  | repetition => cases single
  | _ => exact single

theorem isSimpleLeaf (collapses : Collapses e e') : e'.isSimpleLeaf = e.isSimpleLeaf := by
  cases collapses <;> rfl

theorem asGroup? {kind : GroupKind} {es : List Expr} (collapses : Collapses e e')
    (bracket : e.asGroup? = some (kind, es)) :
    ∃ es', e'.asGroup? = some (kind, es') ∧ CollapsesAll es es' := by
  revert bracket
  fun_cases Expr.asGroup? e <;> intro bracket <;> cases bracket
  · cases collapses with
    | alternation parts => exact ⟨_, rfl, parts⟩
  · cases collapses with
    | group inner =>
      cases inner with
      | alternation parts => exact ⟨_, rfl, parts⟩
  · next other =>
    cases collapses with
    | group inner =>
      refine ⟨_, ?_, .cons inner .nil⟩
      cases inner <;> first | rfl | exact (other _ rfl).elim
  · next bounded =>
    cases collapses with
    | repetition inner bounds =>
      exact ⟨_, if_neg fun never => bounded (bounds.never.mp never),
        .cons (.repetition inner bounds) .nil⟩

end Collapses

end Expr

variable {g g' : Graph}

mutual
/-- Expressions that differ in bounds that do not matter become the same stretch, but for these
bounds. -/
theorem Lowered.parallel (enclosing : g.Enclosing) {e e' next cap a id id' b b'} :
    Lowered g.nodes e next cap a id b → Expr.Collapses e e' →
      Lowered g'.nodes e' next cap a id' b' →
        id = id' ∧ b = b' ∧ Parallel g g' (e.isZeroWidth = true) a b next id
  | .nothing void => by
    intro collapses lowered'
    obtain ⟨rfl, rfl⟩ := lowered'.of_isVoid (collapses.isVoid.trans void)
    exact ⟨rfl, rfl, .nothing⟩
  | .leaf single here => by
    intro collapses lowered'
    obtain ⟨here', rfl, rfl⟩ := lowered'.of_leafNode? (collapses.of_leafNode? single)
    exact ⟨rfl, rfl,
      .leaf single here here' fun still _ _ _ _ => Expr.leafEnd_still single here still⟩
  | .row lowered few => by
    intro collapses lowered'
    cases collapses with
    | concat parts =>
      obtain ⟨children', entry', c, row', rest⟩ := lowered'.of_concat
      obtain ⟨rfl, rfl, rfl, parallel⟩ := lowered.parallel enclosing parts row'
      obtain ⟨_, rfl, rfl⟩ | ⟨several, _⟩ := rest
      · exact ⟨rfl, rfl, parallel⟩
      · omega
  | .sequence lowered several here => by
    intro collapses lowered'
    cases collapses with
    | concat parts =>
      obtain ⟨children', entry', c, row', rest⟩ := lowered'.of_concat
      obtain ⟨rfl, rfl, rfl, parallel⟩ := lowered.parallel enclosing parts row'
      obtain ⟨few, _⟩ | ⟨_, here', rfl, rfl⟩ := rest
      · omega
      · exact ⟨rfl, rfl, .widen (.sequence parallel lowered.head several here here')
          (Nat.le_refl _) (Nat.le_refl _) fun still => still⟩
  | .group bracket tail lowered head => by
    intro collapses lowered'
    obtain ⟨es', bracket', parts⟩ := collapses.asGroup? bracket
    obtain ⟨ids', c, tail', branches', head', rfl, rfl⟩ := lowered'.of_asGroup? bracket'
    obtain ⟨rfl, rfl, parallel⟩ := lowered.parallel enclosing parts branches'
    rw [parts.captureCount] at head'
    exact ⟨rfl, rfl, .widen (.group enclosing lowered.entered.2.1 tail tail' head head' parallel
      (Expr.areZeroWidth_of_asGroup? bracket)) (Nat.le_refl _) (Nat.le_refl _) fun still => still⟩
  | .leafLoop bounded plain simple single leaf here => by
    intro collapses lowered'
    cases collapses with
    | repetition inner bounds =>
      have moving := Bool.eq_false_iff.mp (Expr.isZeroWidth_of_isSimpleLeaf simple)
      obtain ⟨rfl, rfl⟩ := bounds.fixed.resolve_left moving
      obtain ⟨leaf', here', rfl, rfl⟩ := lowered'.of_leafRepetition bounded plain
        (inner.isSimpleLeaf.trans simple) (inner.of_leafNode? single)
      exact ⟨rfl, rfl, .leafLoop enclosing moving single leaf leaf' here here'⟩
  | .loop bounded plain complex here tail lowered => by
    intro collapses lowered'
    cases collapses with
    | repetition inner bounds =>
      obtain ⟨entry, here', tail', body', rfl⟩ := lowered'.of_repetition
        (fun never => bounded (bounds.never.mp never)) plain (inner.isSimpleLeaf.trans complex)
      obtain ⟨rfl, rfl, parallel⟩ := lowered.parallel enclosing inner body'
      exact ⟨rfl, rfl, .loop enclosing lowered.entered.2.1 here here' tail tail' parallel
        bounds.required (bounds.room bounded) bounds.fixed⟩
theorem LoweredRow.parallel (enclosing : g.Enclosing)
    {items items' next cap a children children' id id' b b'} :
    LoweredRow g.nodes items next cap a children id b → Expr.CollapsesAll items items' →
      LoweredRow g'.nodes items' next cap a children' id' b' →
        children = children' ∧ id = id' ∧ b = b' ∧
          Parallel g g' (Expr.areZeroWidth items = true) a b next id
  | .nil => by
    intro parts row'
    cases parts
    cases row'
    exact ⟨rfl, rfl, rfl, .nothing⟩
  | .cons later first => by
    intro parts row'
    cases parts with
    | cons one others =>
      cases row' with
      | cons later' first' =>
        rw [one.captureCount] at later'
        obtain ⟨rfl, rfl, rfl, after⟩ := later.parallel enclosing others later'
        obtain ⟨rfl, rfl, here⟩ := first.parallel enclosing one first'
        have before := later.entered.2.1
        have beyond := first.entered.2.1
        refine ⟨rfl, rfl, rfl, .trans (after.widen (Nat.le_refl _) beyond ?_)
          (here.widen before (Nat.le_refl _) ?_)⟩ <;>
          simp +contextual [Expr.areZeroWidth]
theorem LoweredBranches.parallel (enclosing : g.Enclosing)
    {branches branches' next cap a ids ids' b b'} :
    LoweredBranches g.nodes branches next cap a ids b → Expr.CollapsesAll branches branches' →
      LoweredBranches g'.nodes branches' next cap a ids' b' →
        ids = ids' ∧ b = b' ∧
          ∀ id ∈ ids, Parallel g g' (Expr.areZeroWidth branches = true) a b next id
  | .nil => by
    intro parts lowered'
    cases parts
    cases lowered'
    exact ⟨rfl, rfl, by simp⟩
  | .cons first later => by
    intro parts lowered'
    cases parts with
    | cons one others =>
      cases lowered' with
      | cons first' later' =>
        rw [one.captureCount] at later'
        obtain ⟨rfl, rfl, here⟩ := first.parallel enclosing one first'
        obtain ⟨rfl, rfl, after⟩ := later.parallel enclosing others later'
        have before := first.entered.2.1
        have beyond := later.entered.2.1
        refine ⟨rfl, rfl, List.forall_mem_cons.mpr
          ⟨here.widen (Nat.le_refl _) beyond ?_, fun id member =>
            (after id member).widen before (Nat.le_refl _) ?_⟩⟩ <;>
          simp +contextual [Expr.areZeroWidth]
end

def SameVerdicts (g g' : Graph) : Prop :=
  ∀ (t : Text) (start : Nat) (options : MatchOptions),
    g'.run t start options = g.run t start options ∧
      g'.search t start options = g.search t start options

namespace Graph

theorem searchFrom_eq {t : Text} (attempts : ∀ q s, g'.attemptAt t q s = g.attemptAt t q s)
    (leadByte : g'.leadByte = g.leadByte) (origin p : Nat) (s : MatchState) :
    g'.searchFrom t origin p s = g.searchFrom t origin p s := by
  have candidate (p : Nat) : g'.candidate? t p = g.candidate? t p := by
    rw [candidate?, candidate?, leadByte]
  induction p, s using searchFrom.induct g t with
  | case1 p s missing =>
    rw [searchFrom_none missing, searchFrom_none ((candidate p).trans missing)]
  | case2 p s q found ih =>
    rw [searchFrom_found found, searchFrom_found ((candidate p).trans found), attempts]
    congr
    funext (verdict, u)
    match verdict with
    | .error e | .ok (.matched captures) => rfl
    | .ok .noMatch =>
      simp only [searchOn]
      split
      · next c read => exact ih u c read
      · rfl
      · rfl

theorem sameVerdicts (slots : g'.slots = g.slots) (captures : g'.captures = g.captures)
    (leadByte : g'.leadByte = g.leadByte)
    (attempts : ∀ t p s, g'.attempt t g'.entry p s = g.attempt t g.entry p s) :
    SameVerdicts g g' := by
  intro t start options
  have attemptAt (q : Nat) (s : MatchState) : g'.attemptAt t q s = g.attemptAt t q s := by
    rw [Graph.attemptAt, attempts, Graph.attemptAt]
  have fresh : MatchState.ofGraph g' options = MatchState.ofGraph g options := by
    rw [MatchState.ofGraph, slots, captures, MatchState.ofGraph]
  simp only [run, matchAt, search, searchWith, fresh, attemptAt,
    searchFrom_eq attemptAt leadByte, and_self]

end Graph

namespace Expr

theorem Collapses.sameVerdicts {e e' : Expr} (collapses : Collapses e e')
    (compiled : e.Compiled g) (compiled' : e'.Compiled g') : SameVerdicts g g' := by
  obtain ⟨entry, marks, parallel⟩ :=
    compiled.lowered.parallel compiled.enclosing collapses compiled'.lowered
  obtain ⟨size, slots⟩ := Mark.mk.inj marks
  have lead := parallel.lead (.of_node compiled.succeed compiled'.succeed (by simp [Node.leads]))
  refine Graph.sameVerdicts slots.symm ?_ ?_ fun t p s => ?_
  · rw [compiled'.captures, collapses.captureCount, compiled.captures]
  · rw [compiled'.leadByte, compiled.leadByte, ← entry, ← size, lead]
  · have ended : g.Agree g' t (fun _ _ => True) (fun _ _ => True) (g.nestingBound t)
        Node.succeedId := .final (.inl rfl) compiled.succeed compiled'.succeed fun _ _ _ => trivial
    have agree := parallel.agree Lasting.always (.inr trivial) ended
    rw [Graph.attempt, Graph.attempt, Graph.nestingBound, ← size, ← entry]
    exact (agree _ (Nat.le_refl _) p s.regs trivial s rfl).same

/-- A repetition of zero width comes down to one iteration, required if any was required, wherever
it stands in an expression: that still compiles, and every match and every search ends as before,
with the same captures or the same error. -/
theorem zeroWidth_repeats_once (c : Context) {body : Expr} (still : body.isZeroWidth = true)
    (min : Nat) {max : Option Nat} (room : ∀ m, max = some m → Nat.max 1 min ≤ m)
    (kind : RepeatKind) {g : Graph} (ok : (c.fill (repetition body min max kind)).compile = .ok g) :
    ∃ g', (c.fill (repetition body (min.min 1) (some 1) kind)).compile = .ok g' ∧
      SameVerdicts g g' := by
  have room m (bound : max = some m) : 1 ≤ m ∧ min ≤ m := Nat.max_le.mp (room m bound)
  have once : Collapses (repetition body min max kind)
      (repetition body (min.min 1) (some 1) kind) :=
    .repetition (.refl body) (.once still room)
  have collapses := once.fill c
  have compiled := compile_compiled ok
  obtain ⟨g', ok'⟩ := compile_of_check (e := c.fill (repetition body (min.min 1) (some 1) kind)) (by
    rw [collapses.captureCount, collapses.check]
    exact compiled.checked)
  exact ⟨g', ok', collapses.sameVerdicts compiled (compile_compiled ok')⟩

theorem zeroWidth_repeats_once_inside : ∃ g g',
    (repetition (concat [repetition (group .lookAhead (group .capture (literal "a" false))) 3 none
      .reluctant, literal "a" false]) 0 none .greedy).compile = .ok g ∧
    (repetition (concat [repetition (group .lookAhead (group .capture (literal "a" false))) 1
      (some 1) .reluctant, literal "a" false]) 0 none .greedy).compile = .ok g' ∧
    g'.run ⟨"aab", by decide⟩ 0 { retriesInMatch := 12 } =
      .ok (.ok (.matched ⟨⟨"aab", by decide⟩, #[some ⟨0, 2⟩, some ⟨1, 2⟩]⟩)) ∧
    g'.search ⟨"aab", by decide⟩ 0 { retriesInMatch := 11 } =
      .ok (.error (.halted .retriesInMatch)) := by
  let c : Context := .repetition (.item [] .here [literal "a" false]) 0 none .greedy
  let g : Graph := ⟨#[.succeed, .loop ⟨0, 11, 0, none, true, 0⟩, .loopTail 1, .literal "a" false 2,
    .loop ⟨1, 10, 3, none, false, 3⟩, .loopTail 4, .commit 2, .groupEnd 3 (some 1) 6,
    .literal "a" false 7, .group 3 (some 1) [8] 6, .lookAhead 2 false [9] ⟨⟨1, 2⟩, ⟨3, 4⟩⟩ 5,
    .sequence [4, 3] 2], 1, 1, 4, none⟩
  have ok : (c.fill (repetition (group .lookAhead (group .capture (literal "a" false))) 3 none
    .reluctant)).compile = .ok g := rfl
  have matched : g.run ⟨"aab", by decide⟩ 0 { retriesInMatch := 12 } =
      .ok (.ok (.matched ⟨⟨"aab", by decide⟩, #[some ⟨0, 2⟩, some ⟨1, 2⟩]⟩)) := by decide +kernel
  have halted : g.search ⟨"aab", by decide⟩ 0 { retriesInMatch := 11 } =
      .ok (.error (.halted .retriesInMatch)) := by decide +kernel
  obtain ⟨g', ok', same⟩ := zeroWidth_repeats_once c rfl 3 (by simp) .reluctant ok
  exact ⟨g, g', ok, ok', (same _ _ _).1.trans matched, (same _ _ _).2.trans halted⟩

end Expr

end BacktrackRegex
