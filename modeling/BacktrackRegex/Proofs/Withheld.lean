import BacktrackRegex.Proofs.Agreement
import BacktrackRegex.Proofs.Parts
import BacktrackRegex.Proofs.Tried

/-! Groups that never take part. What a group in a negative lookahead matches is put back before the
match goes on, and a repetition that is left out has no nodes. So a match leaves these groups unset,
and a back reference to one of them from outside finds nothing. -/
namespace BacktrackRegex

/-- Whether a part keeps what the groups in it match from the rest of the expression. -/
def Expr.withholds : Expr → Bool
  | group .negativeLookAhead _ | repetition _ _ (some 0) _ => true
  | _ => false

/-- Visits, with those of `other` in place of the ones that `barred` picks out. -/
def Graph.attemptUnless (g : Graph) (t : Text) (barred : NodeId → Nat → MatchState → Bool)
    (other : Visit) : Nat → Visit
  | 0, _, _, _ => throw .nesting
  | depth + 1, id, p, s =>
    if barred id p s then other id p s
    else Attempt.opened (g.visitNode t (g.attemptUnless t barred other depth) id p) s

/-- Whether a back reference to group `k` that stands outside the part at `path` matches. -/
def Graph.refersBack (g : Graph) (e : Expr) (t : Text) (path : Path) (k : Nat) (id : NodeId)
    (p : Nat) (s : MatchState) : Bool :=
  match g.nodes[id]?, e.source? id, g.leafEnd t s id p with
  | some (.backReference n _ _), some place, .ok (some _) => n == k && !path.isPrefixOf place
  | _, _, _ => false

/-- Only branches of negative lookaheads lead to the hidden nodes, from which nothing leads out but
to the end of the expression. Group `k` is set nowhere else. -/
structure Graph.Hides (g : Graph) (hidden : NodeId → Prop) (k : Nat) : Prop where
  inward : ∀ {id : Nat} {n}, hidden id → g.nodes[id]? = some n →
    ∀ m ∈ g.links n, hidden m ∨ m = Node.succeedId
  outward : ∀ {id : Nat} {n}, ¬hidden id → g.nodes[id]? = some n →
    (∀ m ∈ g.links n, ¬hidden m) ∨ ∃ slot branches inner next,
      n = .lookAhead slot true branches inner next ∧ (∀ b ∈ branches, hidden b) ∧ ¬hidden next
  capture : ∀ {id : Nat} {n}, ¬hidden id → g.nodes[id]? = some n → n.capture? ≠ some k

theorem Expr.withholds_cases {part : Expr} (withholds : part.withholds = true) :
    (∃ body, part = group .negativeLookAhead body) ∨
      ∃ body min kind, part = repetition body min (some 0) kind := by
  revert withholds
  fun_cases withholds part <;> simp

section Regions

variable {g : Graph} {e part : Expr} {next cap : Nat} {a b : Mark} {id : Nat} {path place : Path}
  {k : Nat}

theorem Lowered.of_withholds (lowered : Lowered g.nodes part next cap a id b)
    (withholds : part.withholds = true) : a.node = b.node ∨
      ∃ branches cap' slot ids c inner, g.nodes[a.node]? = some (.commit slot) ∧
        LoweredBranches g.nodes branches a.node cap' ⟨a.node + 1, a.slot + 1⟩ ids c ∧
        g.nodes[c.node]? = some (.lookAhead slot true ids inner next) ∧
        id = c.node ∧ b.node = c.node + 1 := by
  obtain ⟨body, rfl⟩ | ⟨body, min, kind, rfl⟩ := Expr.withholds_cases withholds
  · cases lowered with
    | nothing void => exact .inl rfl
    | leaf single here => cases single
    | @group _ kind branches _ _ _ ids c bracket tail lowered head =>
      obtain rfl : kind = .negativeLookAhead := by
        obtain ⟨same, _⟩ | same | ⟨_, same, _⟩ | ⟨_, _, _, same, _⟩ := Expr.asGroup?_cases bracket
        · cases same
        · cases same; rfl
        · cases same; rfl
        · cases same
      exact .inr ⟨branches, _, _, ids, c, _, tail, lowered, head, rfl, rfl⟩
  · cases lowered with
    | nothing void => exact .inl rfl
    | leaf single here => cases single
    | group bracket tail lowered head => cases kind <;> cases bracket
    | leafLoop bounded => exact absurd rfl bounded
    | loop bounded => exact absurd rfl bounded

namespace Stretch

variable {x : Stretch}

def hidden (x : Stretch) (m : Nat) : Prop := x.nodes.start ≤ m ∧ m + 1 < x.nodes.stop

theorem Holds.of_withholds (holds : x.Holds g part) (withholds : part.withholds = true) :
    x.nodes.start = x.nodes.stop ∨ ∃ (branches : List Expr) (next cap slot : Nat)
      (ids : List Nat) (c d : Mark) (inner : Frame),
      g.nodes[x.nodes.start]? = some (.commit slot) ∧
      LoweredBranches g.nodes branches x.nodes.start cap c ids d ∧ c.node = x.nodes.start + 1 ∧
      g.nodes[d.node]? = some (.lookAhead slot true ids inner next) ∧ next < x.nodes.start ∧
      x.entry = d.node ∧ x.nodes.stop = d.node + 1 := by
  obtain empty | ⟨next, cap, a, b, lowered, before, low, high⟩ := holds
  · exact .inl empty
  · rw [← low, ← high]
    obtain empty | ⟨branches, cap', slot, ids, c, inner, commit, within, head, entry, stop⟩ :=
      lowered.of_withholds withholds
    · exact .inl empty
    · exact .inr ⟨branches, next, cap', slot, ids, _, c, inner, commit, within, rfl, head, before,
        entry, stop⟩

end Stretch

namespace Lodged

variable {x : Stretch} {captures : Interval} {entries : List NodeId}

theorem spares (lodged : Lodged g x path e.layout e.numberedGroups 1 g.size captures entries)
    (succeed : g.nodes[Node.succeedId]? = some .succeed)
    (outside : id < x.nodes.start ∨ x.nodes.stop ≤ id) {n : Node} (node : g.nodes[id]? = some n) :
    x.Spares g n := by
  rcases Nat.eq_zero_or_pos id with rfl | later
  · cases node.symm.trans succeed
    exact ⟨by simp [Graph.links], by simp [Node.capture?]⟩
  · exact lodged.others later (Array.getElem?_eq_some_iff.mp node).1 outside node

theorem unset (lodged : Lodged g x path e.layout e.numberedGroups 1 g.size captures entries)
    (succeed : g.nodes[Node.succeedId]? = some .succeed) (numbered : (place, k) ∈ e.numberedGroups)
    (inside : path <+: place) (outside : id < x.nodes.start ∨ x.nodes.stop ≤ id) {n : Node}
    (node : g.nodes[id]? = some n) : n.capture? ≠ some k := by
  intro sets
  have own := lodged.groups numbered inside
  have := (lodged.spares succeed outside node).capture k sets
  omega

theorem hides (lodged : Lodged g x path e.layout e.numberedGroups 1 g.size captures entries)
    (succeed : g.nodes[Node.succeedId]? = some .succeed) (holds : x.Holds g part)
    (withholds : part.withholds = true) (numbered : (place, k) ∈ e.numberedGroups)
    (inside : path <+: place) : g.Hides x.hidden k ∧ ∀ m, x.Admits m → ¬x.hidden m := by
  have ordered := lodged.among.nodes
  have unset {id : Nat} {n : Node} (outside : id < x.nodes.start ∨ x.nodes.stop ≤ id)
      (node : g.nodes[id]? = some n) : n.capture? ≠ some k :=
    lodged.unset succeed numbered inside outside node
  unfold Stretch.hidden
  obtain empty | ⟨branches, next, cap, slot, ids, c, d, inner, commit, lowered, above, head, before,
    entry, last⟩ := holds.of_withholds withholds
  · exact ⟨⟨fun hidden => by omega, fun _ _ => .inl fun m _ => by omega,
      fun _ node => unset (by omega) node⟩, fun m _ => by omega⟩
  have entered := lowered.entered
  have admitted {m : Nat} (admits : x.Admits m) : ¬(x.nodes.start ≤ m ∧ m + 1 < x.nodes.stop) := by
    unfold Stretch.Admits at admits
    omega
  refine ⟨⟨?_, ?_, ?_⟩, fun m => admitted⟩
  · -- The commit leads nowhere, and the branches lead on among themselves or back to it.
    intro id n hidden node m member
    obtain rfl | later : id = x.nodes.start ∨ x.nodes.start < id := by omega
    · cases commit.symm.trans node
      cases member
    · obtain inner | rfl | rfl :=
        (lowered.placed succeed (m := id) (by omega) (by omega) node).links m member
      · exact .inl (by omega)
      · exact .inl (by omega)
      · exact .inr rfl
  · -- The node of the lookahead itself is not hidden, though it is the last of the stretch.
    intro id n outside node
    obtain rfl | far : id = d.node ∨ (id < x.nodes.start ∨ x.nodes.stop ≤ id) := by omega
    · cases head.symm.trans node
      refine .inr ⟨slot, ids, inner, next, rfl, fun b member => ?_, by omega⟩
      have := entered.2.2 b member
      omega
    · exact .inl fun m member => admitted ((lodged.spares succeed far node).links m member)
  · intro id n outside node
    obtain rfl | far : id = d.node ∨ (id < x.nodes.start ∨ x.nodes.stop ≤ id) := by omega
    · cases head.symm.trans node
      simp [Node.capture?]
    · exact unset far node

end Lodged

theorem Expr.Compiled.hides (compiled : e.Compiled g) (found : e.part? path = some part)
    (withholds : part.withholds = true) (numbered : (place, k) ∈ e.numberedGroups)
    (inside : path <+: place) : ∃ hidden, g.Hides hidden k ∧ ¬hidden g.entry ∧
      ∀ id, hidden id → ∃ source, e.source? id = some source ∧ path <+: source := by
  have other (branches : List Expr) : part ≠ alternation branches := by
    rintro rfl
    cases withholds
  obtain ⟨x, holds, lodged⟩ := compiled.lodges found other
  obtain ⟨hides, outside⟩ := lodged.hides compiled.succeed holds withholds numbered inside
  refine ⟨x.hidden, hides, outside _ (lodged.among.entries _ (by simp)), fun id hidden => ?_⟩
  obtain ⟨source, made, under⟩ := lodged.places hidden.1 (Nat.lt_of_succ_lt hidden.2)
  have later := Nat.le_trans lodged.among.nodes.1 hidden.1
  obtain ⟨id, rfl⟩ := Nat.exists_eq_succ_of_ne_zero (Nat.ne_of_gt later)
  exact ⟨source, made, under⟩

end Regions

structure Registers.Vacant (r : Registers) (k : Nat) : Prop where
  start : r.starts[k]? = some none
  stop : r.ends[k]? = some none

theorem Registers.Vacant.putGroup {r : Registers} {k n : Nat} (vacant : r.Vacant k) (other : n ≠ k)
    (start stop : Option Nat) : (r.putGroup n start stop).Vacant k := by
  refine ⟨?_, ?_⟩
  · rw [Registers.putGroup, Array.getElem?_setIfInBounds_ne other]
    exact vacant.start
  · rw [Registers.putGroup, Array.getElem?_setIfInBounds_ne other]
    exact vacant.stop

theorem Registers.Vacant.clear {r : Registers} {k : Nat} (origin : Nat) (starts : k < r.starts.size)
    (ends : k < r.ends.size) : (r.clear origin).Vacant k := by
  constructor <;> simp [Registers.clear, starts, ends]

theorem Node.keeps_vacant {n : Node} {k : Nat} (other : n.capture? ≠ some k) :
    n.Keeps (·.Vacant k) := by
  constructor
  case putConsumed =>
    intro r slot begun vacant
    exact ⟨vacant.start, vacant.stop⟩
  case putCount =>
    intro r slot n vacant
    exact ⟨vacant.start, vacant.stop⟩
  case putGroup =>
    intro r m start stop own vacant
    have different : m ≠ k := by
      rintro rfl
      exact other own
    exact vacant.putGroup different start stop

section Visits

variable {g : Graph} {t : Text} {hidden : NodeId → Prop} {k : Nat}
  {barred : NodeId → Nat → MatchState → Bool} {other : Visit} {Ψ : Nat → Registers → Prop}

theorem attemptUnless_step {depth id p : Nat} {r : Registers}
    (calm : ∀ s : MatchState, s.regs = r → barred id p s = false)
    (rule : ∀ n, g.nodes[id]? = some n → ConcurAt Ψ (g.visitNode t (g.attemptWithin t depth))
      (g.visitNode t (g.attemptUnless t barred other depth)) id p r) :
    ConcurAt Ψ (g.attemptWithin t (depth + 1)) (g.attemptUnless t barred other (depth + 1)) id p
      r := by
  intro s same
  have opens : g.attemptUnless t barred other (depth + 1) id p s = Attempt.opened
      (g.visitNode t (g.attemptUnless t barred other depth) id p) s := by
    rw [Graph.attemptUnless, calm s same]
    rfl
  rw [opens, Graph.attemptWithin_succ]
  exact .opened fun s' same' => Graph.visitNode_concur_of rule s' (same'.trans same)

theorem attemptUnless_hidden (hides : g.Hides hidden k) (enclosing : g.Enclosing)
    (succeed : g.nodes[Node.succeedId]? = some .succeed)
    (calm : ∀ id p s, hidden id ∨ id = Node.succeedId → barred id p s = false)
    {id : NodeId} (inside : hidden id ∨ id = Node.succeedId) (depth p : Nat) (r : Registers) :
    ConcurAt (fun _ _ => True) (g.attemptWithin t depth) (g.attemptUnless t barred other depth) id p
      r := by
  -- On the allowance: links from hidden nodes lead to hidden nodes, where nothing is barred.
  induction depth generalizing id p r with
  | zero => exact fun s _ => ⟨rfl, fun _ _ _ => trivial⟩
  | succ depth ih =>
    refine attemptUnless_step (fun s _ => calm id p s inside) fun n node => ?_
    have tidies : Tidies g t _ (g.attemptWithin t depth) := attemptWithin_tidy enclosing depth
    refine Graph.visitNode_concur enclosing tidies node n.keeps_nothing
      (fun m member q r' _ => ?_) trivial
    obtain here | rfl := inside
    · exact ih (hides.inward here node m member) q r'
    · cases succeed.symm.trans node
      cases member

theorem attemptUnless_outside (hides : g.Hides hidden k) (enclosing : g.Enclosing)
    (succeed : g.nodes[Node.succeedId]? = some .succeed)
    (calm : ∀ id p s, hidden id ∨ id = Node.succeedId → barred id p s = false)
    (calm' : ∀ id p (s : MatchState), s.regs.Vacant k → barred id p s = false)
    {id : NodeId} (outside : ¬hidden id) (depth p : Nat) {r : Registers} (vacant : r.Vacant k) :
    ConcurAt (fun _ r => r.Vacant k) (g.attemptWithin t depth)
      (g.attemptUnless t barred other depth) id p r := by
  induction depth generalizing id p r with
  | zero => exact fun s _ => ⟨rfl, fun _ _ found => by cases found⟩
  | succ depth ih =>
    refine attemptUnless_step (fun s same => calm' id p s (same ▸ vacant)) fun n node => ?_
    have tidies : Tidies g t _ (g.attemptWithin t depth) := attemptWithin_tidy enclosing depth
    have keeps := Node.keeps_vacant (hides.capture outside node)
    obtain links | ⟨slot, branches, inner, next, rfl, within, after⟩ := hides.outward outside node
    · exact Graph.visitNode_concur enclosing tidies node keeps
        (fun m member q r' vacant' => ih (links m member) q vacant') vacant
    · -- Only a negative lookahead leads inside. It goes on when its body has failed, with the
      -- registers it began with, so what the body sets is never seen out here.
      intro s same
      simp only [Graph.visitNode, Graph.node_success.mpr node, bind, Except.bind]
      refine lookAhead_concur (Θ := fun _ _ => True) tidies (enclosing node rfl) (fun b member =>
        attemptUnless_hidden hides enclosing succeed calm (.inl (within b member)) depth p _)
        (fun r' came _ => ?_) same
      obtain rfl | ⟨positive, _⟩ := came
      · exact ih after p (keeps.putConsumed slot (some p) vacant)
      · cases positive

end Visits

section Matches

variable {e part : Expr} {g : Graph} {t : Text} {path place : Path} {k : Nat}
  {hidden : NodeId → Prop}

theorem refersBack_hidden (succeed : g.nodes[Node.succeedId]? = some .succeed)
    (made : ∀ id, hidden id → ∃ source, e.source? id = some source ∧ path <+: source) (id p : Nat)
    (s : MatchState) (inside : hidden id ∨ id = Node.succeedId) :
    g.refersBack e t path k id p s = false := by
  unfold Graph.refersBack
  split
  · next n _ _ source _ node made' _ =>
    obtain here | rfl := inside
    · obtain ⟨source', same, under⟩ := made id here
      cases made'.symm.trans same
      simp [List.isPrefixOf_iff_prefix.mpr under]
    · cases succeed.symm.trans node
  · rfl

theorem refersBack_vacant (id p : Nat) (s : MatchState) (vacant : s.regs.Vacant k) :
    g.refersBack e t path k id p s = false := by
  unfold Graph.refersBack
  split
  · next n ignoreCase _ source stop node _ ended =>
    have differs : n ≠ k := by
      rintro rfl
      simp [Graph.leafEnd, Graph.node, node, MatchState.group, Registers.group, Registers.read,
        vacant.start, vacant.stop, bind, Except.bind, backReferenceEnd, pure, Except.pure] at ended
    simp [differs]
  · rfl

theorem Expr.Compiled.attempt_withheld (compiled : e.Compiled g)
    (found : e.part? path = some part) (withholds : part.withholds = true)
    (numbered : (place, k) ∈ e.numberedGroups) (inside : path <+: place) (other : Visit)
    (p : Nat) {s : MatchState} (vacant : s.regs.Vacant k) :
    Concur (fun _ r => r.Vacant k) (g.attempt t g.entry p s)
      (g.attemptUnless t (g.refersBack e t path k) other (g.nestingBound t) g.entry p s) := by
  obtain ⟨hidden, hides, outside, made⟩ := compiled.hides found withholds numbered inside
  exact attemptUnless_outside hides compiled.enclosing compiled.succeed
    (refersBack_hidden compiled.succeed made) refersBack_vacant outside _ p vacant s rfl

theorem Expr.Compiled.begins_vacant {start : Nat} {options : MatchOptions} {p : Nat}
    {s : MatchState} (compiled : e.Compiled g) (numbered : (place, k) ∈ e.numberedGroups)
    (begins : g.Begins t start options p s) : s.regs.Vacant k := by
  obtain ⟨before, r, fitted, cleared⟩ := begins.cleared
  have bounds := Expr.lt_of_mem_numbered numbered
  rw [← compiled.captures] at bounds
  rw [cleared]
  exact .clear start (by rw [fitted.starts]; omega) (by rw [fitted.ends]; omega)

theorem Registers.Vacant.ofState {s : MatchState} (vacant : s.regs.Vacant k) :
    (Captures.ofState t s).spans[k]? = some none := by
  simp [Captures.ofState, Array.getElem?_zipWith, vacant.start, vacant.stop]

end Matches

/-- A match leaves every group unset that stands in a negative lookahead, at any depth, or in a
repetition that allows no iteration. A back reference to such a group that stands outside never
matches: the attempts of a match or a search are the same whatever stands in place of the visits
where it does. -/
theorem Expr.withheld_unset {e part : Expr} {g : Graph} (ok : e.compile = .ok g)
    {path place : Path} {k : Nat} (found : e.part? path = some part)
    (withholds : part.withholds = true) (numbered : (place, k) ∈ e.numberedGroups)
    (inside : path <+: place) {t : Text} {start : Nat} (valid : t.isBoundary start = true)
    (options : MatchOptions) :
    (∀ captures, g.run t start options = .ok (.ok (.matched captures)) ∨
        g.search t start options = .ok (.ok (.matched captures)) →
      captures.spans[k]? = some none) ∧
    ∀ q s, g.Makes t start options q s → ∀ other,
      g.attemptUnless t (g.refersBack e t path k) other (g.nestingBound t) g.entry q s =
        g.attempt t g.entry q s := by
  have compiled := compile_compiled ok
  have concur {q : Nat} {s : MatchState} (makes : g.Makes t start options q s) (other : Visit) :=
    compiled.attempt_withheld found withholds numbered inside (t := t) other q
      (compiled.begins_vacant numbered (compiled.makes_begins valid makes))
  refine ⟨fun captures ended => ?_, fun q s makes other => (concur makes other).same⟩
  obtain failed | ⟨q, s, u, makes, answer⟩ := Graph.Makes.of_verdict valid ended
  · cases failed
  · obtain ⟨stop, after, attempted, _, last⟩ := Graph.attemptAt_success answer
    cases stop with
    | none => cases last.1
    | some q' =>
      obtain ⟨wrote, same⟩ := last
      cases same
      obtain ⟨_, _, rfl⟩ := MatchState.setGroup_success.mp wrote
      have vacant := (concur makes (g.attempt t)).ends q' after attempted
      have positive := (Expr.lt_of_mem_numbered numbered).1
      exact (vacant.putGroup (Nat.ne_of_lt positive) _ _).ofState

theorem Expr.withheld_unset_nested : ∃ e g, e = concat [group .negativeLookAhead (group .capture
      (literal "b" false)), repetition (group .capture (literal "c" false)) 0 (some 0) .greedy,
      literal "a" false, repetition (backReference 1 false) 0 (some 1) .greedy] ∧
    e.compile = .ok g ∧
    g.search ⟨"ba", by decide⟩ 0 {} =
      .ok (.ok (.matched ⟨⟨"ba", by decide⟩, #[some ⟨1, 2⟩, none, none]⟩)) ∧
    #[some (⟨1, 2⟩ : Span), none, none][1]? = some none ∧
    #[some (⟨1, 2⟩ : Span), none, none][2]? = some none ∧
    g.attemptUnless ⟨"ba", by decide⟩ (g.refersBack e ⟨"ba", by decide⟩ [0] 1)
        (fun _ p s => .ok (some p, s)) (g.nestingBound ⟨"ba", by decide⟩) g.entry 0
        (.fresh g {} 0) = g.attempt ⟨"ba", by decide⟩ g.entry 0 (.fresh g {} 0) := by
  let t : Text := ⟨"ba", by decide⟩
  let e := concat [group .negativeLookAhead (group .capture (literal "b" false)),
    repetition (group .capture (literal "c" false)) 0 (some 0) .greedy, literal "a" false,
    repetition (backReference 1 false) 0 (some 1) .greedy]
  let g : Graph := ⟨#[.succeed, .loop ⟨0, 3, 0, some 1, true, 0⟩, .loopTail 1,
    .backReference 1 false 2, .literal "a" false 1, .commit 1, .groupEnd 2 (some 1) 5,
    .literal "b" false 6, .group 2 (some 1) [7] 5, .lookAhead 1 true [8] ⟨⟨1, 2⟩, ⟨2, 3⟩⟩ 4,
    .sequence [9, 4, 1] 0], 10, 2, 3, none⟩
  have ok : e.compile = .ok g := rfl
  have searched : g.search t 0 {} = .ok (.ok (.matched ⟨t, #[some ⟨1, 2⟩, none, none]⟩)) := by
    decide +kernel
  have valid : t.isBoundary 0 = true := by decide
  have numbered : e.numberedGroups = [([0, 0], 1), ([1, 0], 2)] := rfl
  obtain ⟨unset, calm⟩ := withheld_unset ok (rfl : e.part? [0] = some _) rfl
    (by rw [numbered]; decide : ([0, 0], 1) ∈ _) (by decide) valid {}
  obtain ⟨unset', _⟩ := withheld_unset ok (rfl : e.part? [1] = some _) rfl
    (by rw [numbered]; decide : ([1, 0], 2) ∈ _) (by decide) valid {}
  exact ⟨e, g, rfl, ok, searched, unset _ (.inr searched), unset' _ (.inr searched),
    calm 0 _ .run _⟩

end BacktrackRegex
