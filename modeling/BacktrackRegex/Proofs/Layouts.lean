import BacktrackRegex.Proofs.Inventory

/-! Inventories of what expressions are lowered to. The nodes of an expression are made from the
parts that its layout names; each expression, row and list of branches takes over the inventories of
its parts. -/
namespace BacktrackRegex

namespace Expr

mutual
theorem captureGroups_length : ∀ e : Expr, e.captureGroups.length = e.captureCount
  | empty | literal .. | charClass _ | anchor _ | backReference .. => rfl
  | concat items => by rw [captureGroups, captureCount, captureGroupsAll_length]
  | alternation branches => by rw [captureGroups, captureCount, captureGroupsAll_length]
  | group kind body => by
    rw [captureGroups, captureCount, List.length_append, List.length_map, captureGroups_length body]
    split <;> simp [Nat.add_comm]
  | repetition body _ _ kind => by
    rw [captureGroups, captureCount]
    split <;> simp [captureGroups_length body]
theorem captureGroupsAll_length (i : Nat) : ∀ es : List Expr,
    (captureGroupsAll i es).length = captureCountAll es
  | [] => rfl
  | e :: es => by
    rw [captureGroupsAll, captureCountAll, List.length_append, List.length_map,
      captureGroups_length e, captureGroupsAll_length (i + 1) es]
end

theorem zipIdx_under (pre : Path) (groups : List Path) (cap : Nat) :
    (groups.map (pre ++ ·)).zipIdx cap = groupsUnder pre (groups.zipIdx cap) := by
  rw [List.zipIdx_map]
  rfl

theorem numbered_cons (i : Nat) (e : Expr) (es : List Expr) (cap : Nat) :
    (captureGroupsAll i (e :: es)).zipIdx cap =
      groupsUnder [i] (e.captureGroups.zipIdx cap) ++
        (captureGroupsAll (i + 1) es).zipIdx (cap + e.captureCount) := by
  have inside := zipIdx_under [i] e.captureGroups cap
  simp only [List.singleton_append] at inside
  rw [captureGroupsAll, List.zipIdx_append, List.length_map, captureGroups_length, inside]

theorem mem_layoutAll {path : Path} {i : Nat} {es : List Expr}
    (member : path ∈ (layoutAll i es).flatten) : path.In (i ≤ ·) := by
  induction es generalizing i with
  | nil => simp [layoutAll] at member
  | cons e es ih =>
    rw [layoutAll, List.flatten_cons, List.mem_append] at member
    obtain here | later := member
    · obtain ⟨rest, _, rfl⟩ := List.mem_map.mp here
      exact ⟨i, rest, rfl, Nat.le_refl i⟩
    · obtain ⟨j, rest, rfl, above⟩ := ih later
      exact ⟨j, rest, rfl, Nat.le_of_succ_le above⟩

theorem mem_captureGroupsAll {path : Path} {i : Nat} {es : List Expr}
    (member : path ∈ captureGroupsAll i es) : path.In (i ≤ ·) := by
  induction es generalizing i with
  | nil => simp [captureGroupsAll] at member
  | cons e es ih =>
    rw [captureGroupsAll, List.mem_append] at member
    obtain here | later := member
    · obtain ⟨rest, _, rfl⟩ := List.mem_map.mp here
      exact ⟨i, rest, rfl, Nat.le_refl i⟩
    · obtain ⟨j, rest, rfl, above⟩ := ih later
      exact ⟨j, rest, rfl, Nat.le_of_succ_le above⟩

theorem mem_under {path : Path} {i : Nat} {paths : List Path}
    (member : path ∈ paths.map ([i] ++ ·)) : path.In (i = ·) := by
  obtain ⟨rest, _, rfl⟩ := List.mem_map.mp member
  exact ⟨i, rest, rfl, rfl⟩

theorem mem_groupsUnder {i : Nat} {groups : List (Path × Nat)} {z : Path × Nat}
    (member : z ∈ groupsUnder [i] groups) : z.1.In (i = ·) := by
  obtain ⟨z, _, rfl⟩ := List.mem_map.mp member
  exact ⟨i, z.1, rfl, rfl⟩

def branchesAt : Expr → Path
  | group _ (alternation _) => [0]
  | _ => []

theorem branchesAt_single {kind : GroupKind} {body : Expr}
    (other : ∀ branches, body ≠ alternation branches) : (group kind body).branchesAt = [] := by
  cases body with
  | alternation branches => exact absurd rfl (other branches)
  | _ => rfl

theorem layout_of_asGroup? {e : Expr} {kind : GroupKind} {es : List Expr}
    (bracket : e.asGroup? = some (kind, es)) :
    e.layout = [] :: (layoutAll 0 es).flatten.map (e.branchesAt ++ ·) ++ [[]] := by
  revert bracket
  fun_cases asGroup? e <;> intro bracket <;> cases bracket
  · simp [layout, branchesAt]
  · simp [layout, branchesAt]
  · next body _ =>
    cases body <;> simp_all [layout, layoutAll, branchesAt]
  · simp_all [layout, layoutAll, branchesAt]

theorem captureGroups_of_asGroup? {e : Expr} {kind : GroupKind} {es : List Expr}
    (bracket : e.asGroup? = some (kind, es)) :
    e.captureGroups = (if kind = .capture then [[]] else []) ++
      (captureGroupsAll 0 es).map (e.branchesAt ++ ·) := by
  have nothing (body : Expr) : body.captureGroups.map (0 :: ·) = captureGroupsAll 0 [body] := by
    simp [captureGroupsAll]
  revert bracket
  fun_cases asGroup? e <;> intro bracket <;> cases bracket
  · simp [captureGroups, branchesAt]
  · simp [captureGroups, branchesAt]
  · next body other =>
    simp [captureGroups, nothing, branchesAt_single other]
  · simp [captureGroups, captureGroupsAll, branchesAt]

theorem numbered_of_asGroup? {e : Expr} {kind : GroupKind} {es : List Expr}
    (bracket : e.asGroup? = some (kind, es)) (cap : Nat) :
    e.captureGroups.zipIdx cap = (if kind = .capture then [([], cap)] else []) ++
      groupsUnder e.branchesAt ((captureGroupsAll 0 es).zipIdx (kind.firstInner cap)) := by
  rw [← zipIdx_under, captureGroups_of_asGroup? bracket]
  cases kind <;> simp [GroupKind.firstInner, List.zipIdx_cons]

theorem part?_of_asGroup? {e : Expr} {kind : GroupKind} {es : List Expr}
    (bracket : e.asGroup? = some (kind, es)) (i : Nat) (path : Path) :
    e.part? (e.branchesAt ++ i :: path) = es[i]?.bind (·.part? path) := by
  revert bracket
  fun_cases asGroup? e <;> intro bracket <;> cases bracket
  · simp [part?, branchesAt]
  · simp [part?, branchesAt]
  · next body other =>
    cases i <;> simp [part?, branchesAt_single other]
  · cases i <;> simp [part?, branchesAt]

theorem part?_root (e : Expr) : e.part? [] = some e := by
  cases e <;> rfl

theorem part?_body {kind : RepeatKind} (plain : kind ≠ .possessive) {body : Expr} (min : Nat)
    (max : Option Nat) :
    (fun path => (repetition body min max kind).part? ([0] ++ path)) = body.part? := by
  funext path
  cases kind <;> first | contradiction | rfl

theorem layout_loop {kind : RepeatKind} (plain : kind ≠ .possessive) {body : Expr} {min : Nat}
    {max : Option Nat} (bounded : max ≠ some 0) : (repetition body min max kind).layout =
      if body.isSimpleLeaf then [[0], []] else [] :: [] :: body.layout.map ([0] ++ ·) := by
  simp [layout, plain, bounded]

theorem numbered_loop {kind : RepeatKind} (plain : kind ≠ .possessive) (body : Expr) (min : Nat)
    (max : Option Nat) (cap : Nat) : (repetition body min max kind).captureGroups.zipIdx cap =
      groupsUnder [0] (body.captureGroups.zipIdx cap) := by
  rw [captureGroups, if_neg plain]
  exact zipIdx_under [0] body.captureGroups cap

theorem layout_of_isVoid {e : Expr} (void : e.isVoid = true) : e.layout = [] := by
  cases e <;> simp_all [isVoid, layout]

theorem layout_of_leafNode? {e : Expr} {next : NodeId} {n : Node}
    (single : e.leafNode? next = some n) : e.layout = [[]] := by
  revert single
  fun_cases leafNode? e next <;> intro single <;> cases single <;> simp_all [layout]

end Expr

variable {g : Graph}

inductive Node.Plain : Node → Prop
  | literal {text ignoreCase next} : Plain (.literal text ignoreCase next)
  | charClass {members next} : Plain (.charClass members next)
  | anchor {condition next} : Plain (.anchor condition next)
  | backReference {n ignoreCase next} : Plain (.backReference n ignoreCase next)
  | sequence {children next} : Plain (.sequence children next)
  | leafLoop {leaf min max greedy next} : Plain (.leafLoop leaf min max greedy next)

theorem Inventory.plain {part? : Path → Option Expr} {id : Nat} {n : Node} {part : Expr}
    (bare : n.Plain) (here : g.nodes[id]? = some n) (path : Path) (found : part? path = some part)
    (made : n.MadeFrom part) (refs : ∀ m ∈ n.refs, m < id) :
    Inventory g part? [] id (id + 1) [] [] [⟨id, n, path⟩] := by
  cases bare <;> exact .single here path found made refs (by simp) (by simp)
    (by simp [Node.closedBy?])

theorem Node.Plain.frameless {n : Node} (bare : n.Plain) : n.frame? = none := by
  cases bare <;> rfl

theorem Expr.leafNode_bare {e : Expr} {next : NodeId} {n : Node}
    (single : e.leafNode? next = some n) : n.Plain ∧ n.refs = [next] := by
  revert single
  fun_cases leafNode? e next <;> intro single <;> cases single <;> exact ⟨by constructor, rfl⟩

mutual
theorem Lowered.skipped {e next cap a id b} : Lowered g.nodes e next cap a id b →
    next < a.node → id = next → a.node = b.node
  | .nothing _ => by
    intro _ _
    rfl
  | .leaf _ _ => by
    intro before same
    omega
  | .row lowered _ => lowered.skipped
  | .sequence lowered _ _ => by
    intro before same
    have := lowered.entered
    omega
  | .group _ _ lowered _ => by
    intro before same
    have := lowered.entered
    dsimp only at this
    omega
  | .leafLoop _ _ _ _ _ _ => by
    intro before same
    omega
  | .loop _ _ _ _ _ _ => by
    intro before same
    omega
theorem LoweredRow.skipped {items next cap a children id b} :
    LoweredRow g.nodes items next cap a children id b → next < a.node → id = next →
      a.node = b.node
  | .nil => by
    intro _ _
    rfl
  | .cons later first => by
    intro before same
    have low := later.entered
    have entered := first.entered
    have through : id = _ := entered.2.2.resolve_right (by omega)
    have nothing := later.skipped before (by omega)
    exact nothing.trans (first.skipped (by omega) through)
end

namespace Stocked

variable {part? : Path → Option Expr} {groups groups' own own' : List (Path × Nat)}
  {paths : List Path} {a b c d : Mark} {before after : List Entry}
  {owned owned' closed closed' : List Nat}

theorem nothing (groups : List (Path × Nat)) : Stocked g part? groups [] a a := by
  refine ⟨[], rfl, ?_, by simp⟩
  simpa [Mark.slots] using
    Inventory.nothing.mono (List.nil_subperm (l := groups)) (.refl _) (.refl _)

theorem leaf {e : Expr} {next : NodeId} {n : Node} (single : e.leafNode? next = some n)
    (here : g.nodes[a.node]? = some n) (before : next < a.node) (groups : List (Path × Nat)) :
    Stocked g e.part? groups [[]] a ⟨a.node + 1, a.slot⟩ := by
  obtain ⟨bare, refs⟩ := Expr.leafNode_bare single
  refine ⟨[⟨a.node, n, []⟩], rfl, ?_, by simpa using Entry.Framed.plain bare.frameless⟩
  have inventory := Inventory.plain bare here [] (Expr.part?_root e) (.leaf single)
    (by simpa [refs] using before)
  simpa [Mark.slots] using inventory.mono (List.nil_subperm (l := groups)) (.refl _) (.refl _)

theorem amid (inner : Stocked g part? groups paths a b)
    (parts : ∀ path ∈ paths, path ≠ [])
    (first : Inventory g part? own c.node a.node owned closed before)
    (last : Inventory g part? own' b.node d.node owned' closed' after)
    (root : ∀ x ∈ before ++ after, x.path = [])
    (slots : (owned ++ a.slots b ++ owned').Perm (c.slots d))
    (slots' : (closed ++ a.slots b ++ closed').Perm (c.slots d))
    (numbers : (own ++ groups ++ own').Subperm groups')
    (others : ∀ z ∈ groups', z ∈ groups ∨ z.1 = [])
    (frames : ∀ entries, Inventory g part? groups a.node b.node (a.slots b) (a.slots b) entries →
      ∀ x ∈ before ++ after, x.Framed groups' (before ++ entries ++ after)) :
    Stocked g part? groups' (before.map (·.path) ++ paths ++ after.map (·.path)) c d := by
  obtain ⟨entries, rfl, inventory, framed⟩ := inner
  refine ⟨before ++ entries ++ after, by simp,
    ((first.append inventory).append last).mono numbers slots slots', fun x member => ?_⟩
  have own := frames entries inventory x
  simp only [List.mem_append] at member own
  obtain (member | member) | member := member
  · exact own (.inl member)
  · refine (framed x member).amid (parts _ (List.mem_map_of_mem member)) (by simp) ?_ ?_ others
    · intro y among
      simp only [List.mem_append] at among root
      obtain (among | among) | among := among
      · exact .inr (root y (.inl among))
      · exact .inl among
      · exact .inr (root y (.inr among))
    · intro z group
      exact numbers.subset (by simp [group])
  · exact own (.inr member)

end Stocked

namespace GroupKind

variable {part? : Path → Option Expr} {part : Expr} {kind : GroupKind} {branches : List Expr}
  {slot cap next id : Nat} {ids : List Nat} {inner : Frame}

theorem tail_inventory (bracket : part.asGroup? = some (kind, branches))
    (found : part? [] = some part) (here : g.nodes[id]? = some (kind.tail slot cap next))
    (before : next < id) : Inventory g part? [] id (id + 1) [] [slot]
      [⟨id, kind.tail slot cap next, []⟩] := by
  have made : Node.MadeFrom part (kind.tail slot cap next) := .tail bracket
  cases kind <;> exact .single here [] found made (by simp [tail, Node.refs, Node.next?, before])
    (by simp [tail]) (by simp [tail]) (by simp [tail, Node.closedBy?])

theorem head_inventory (bracket : part.asGroup? = some (kind, branches))
    (found : part? [] = some part)
    (here : g.nodes[id]? = some (kind.head slot cap ids inner next)) (before : next < id)
    (entries : ∀ m ∈ ids, m < id)
    (tail : ∃ m : NodeId, g.nodes[m]? = some (kind.tail slot cap next)) :
    Inventory g part? (if kind = .capture then [([], cap)] else []) id (id + 1) [slot] []
      [⟨id, kind.head slot cap ids inner next, []⟩] := by
  have made : Node.MadeFrom part (kind.head slot cap ids inner next) := .head bracket
  have links : ∀ m ∈ next :: ids, m < id := List.forall_mem_cons.mpr ⟨before, entries⟩
  cases kind <;> exact .single here [] found made links (by simp [head]) (by simp [head])
    (by simpa [head, GroupKind.tail, Node.closedBy?] using tail)

theorem head_frame? {slot' : Nat} {inner' : Frame}
    (found : (kind.head slot cap ids inner next).frame? = some (slot', inner')) :
    slot' = slot ∧ inner' = inner ∧ kind ≠ .capture := by
  cases kind <;> cases found <;> simp

end GroupKind

theorem exists_mem_groupsUnder {pre : Path} {paths : List Path} {cap k : Nat} :
    (∃ path, (path, k) ∈ groupsUnder pre (paths.zipIdx cap)) ↔
      cap ≤ k ∧ k < cap + paths.length := by
  constructor
  · rintro ⟨path, member⟩
    obtain ⟨⟨rest, k'⟩, member, same⟩ := List.mem_map.mp member
    cases same
    exact ⟨(List.mem_zipIdx member).1, (List.mem_zipIdx member).2.1⟩
  · rintro ⟨low, high⟩
    have inside : k - cap < paths.length := by omega
    refine ⟨pre ++ paths[k - cap], List.mem_map.mpr ⟨(paths[k - cap], k), ?_, rfl⟩⟩
    exact List.mk_mem_zipIdx_iff_le_and_getElem?_sub.mpr ⟨low, List.getElem?_eq_getElem inside⟩

theorem GroupKind.head_framed {kind : GroupKind} {next cap : Nat} {a b : Mark} {ids : List Nat}
    {part? : Path → Option Expr} {groups : List (Path × Nat)} {paths : List Path} {pre : Path}
    (slots : a.slot < b.slot) {nodes : List Entry}
    (inventory : Inventory g part? groups (a.node + 1) b.node
      (Mark.slots ⟨a.node + 1, a.slot + 1⟩ b) (Mark.slots ⟨a.node + 1, a.slot + 1⟩ b) nodes) :
    Entry.Framed
      ((if kind = .capture then [([], cap)] else []) ++
        groupsUnder pre (paths.zipIdx (kind.firstInner cap)))
      ([⟨a.node, kind.tail a.slot cap next, []⟩] ++ nodes ++
        [⟨b.node, kind.head a.slot cap ids
          ⟨⟨kind.firstInner cap, kind.firstInner cap + paths.length⟩, ⟨a.slot + 1, b.slot⟩⟩
          next, []⟩])
      ⟨b.node, kind.head a.slot cap ids
        ⟨⟨kind.firstInner cap, kind.firstInner cap + paths.length⟩, ⟨a.slot + 1, b.slot⟩⟩
        next, []⟩ := by
  intro slot inner found k
  obtain ⟨rfl, rfl, plain⟩ := GroupKind.head_frame? found
  have owned : k ∈ Mark.slots ⟨a.node + 1, a.slot + 1⟩ b ↔
      ∃ y ∈ nodes, y.node.owned? = some k := by
    rw [← inventory.owned.mem_iff, List.mem_filterMap]
  rw [Mark.slots, List.mem_range'_1] at owned
  dsimp only at owned
  rw [Interval.contains_iff, Interval.contains_iff, if_neg plain, List.nil_append]
  simp only [List.nil_prefix, and_true, exists_mem_groupsUnder]
  constructor
  · intro within
    obtain ⟨y, member, owns⟩ := owned.mp (by omega)
    exact ⟨by omega, y, by simp [member], owns⟩
  · rintro ⟨other, y, member, owns⟩
    have inside : y ∈ nodes := by
      simp only [List.mem_append, List.mem_singleton] at member
      obtain (rfl | member) | rfl := member
      · cases kind <;> cases owns
      · exact member
      · refine absurd ?_ other
        cases kind <;> cases owns <;> rfl
    have := owned.mpr ⟨y, inside, owns⟩
    omega

theorem Stocked.group {e : Expr} {kind : GroupKind} {branches : List Expr} {next cap : Nat}
    {a b : Mark} {ids : List Nat} (bracket : e.asGroup? = some (kind, branches))
    (before : next < a.node) (tail : g.nodes[a.node]? = some (kind.tail a.slot cap next))
    (head : g.nodes[b.node]? = some (kind.head a.slot cap ids
      ⟨⟨kind.firstInner cap, kind.firstInner cap + Expr.captureCountAll branches⟩,
        ⟨a.slot + 1, b.slot⟩⟩ next)) (below : a.node < b.node) (slots : a.slot < b.slot)
    (entries : ∀ id ∈ ids, id < b.node)
    (inner : Stocked g (fun path => e.part? (e.branchesAt ++ path))
      ((Expr.captureGroupsAll 0 branches).zipIdx (kind.firstInner cap))
      (Expr.layoutAll 0 branches).flatten ⟨a.node + 1, a.slot + 1⟩ b) :
    Stocked g e.part? (e.captureGroups.zipIdx cap) e.layout a ⟨b.node + 1, b.slot⟩ := by
  rw [Expr.layout_of_asGroup? bracket, Expr.numbered_of_asGroup? bracket]
  rw [← Expr.captureGroupsAll_length 0] at head
  have last := GroupKind.tail_inventory bracket (Expr.part?_root e) tail before
  have first := GroupKind.head_inventory bracket (Expr.part?_root e) head
    (Nat.lt_trans before below) entries ⟨_, tail⟩
  have own : a.slots ⟨b.node + 1, b.slot⟩ = a.slot :: Mark.slots ⟨a.node + 1, a.slot + 1⟩ b :=
    Mark.slots_cons slots _
  refine (inner.under e.branchesAt).amid (c := a) (d := ⟨b.node + 1, b.slot⟩) ?_ last first
    (by simp) ?_ ?_ List.perm_append_comm.subperm ?_ ?_
  · intro path member
    obtain ⟨rest, inside, rfl⟩ := List.mem_map.mp member
    obtain ⟨i, rest, rfl, _⟩ := Expr.mem_layoutAll inside
    simp
  · rw [own]
    exact List.perm_append_singleton _ _
  · rw [own, List.append_nil]
    exact .refl _
  · intro z member
    obtain member | member := List.mem_append.mp member
    · split at member
      · exact .inr (List.mem_singleton.mp member ▸ rfl)
      · cases member
    · exact .inl member
  · intro nodes inventory x member
    simp only [List.singleton_append, List.mem_cons, List.not_mem_nil, or_false] at member
    obtain rfl | rfl := member
    · exact .plain (by cases kind <;> rfl)
    · exact GroupKind.head_framed slots inventory

mutual
/-- The nodes of an expression are those of its layout. -/
theorem Lowered.stocked {e next cap a id b} : Lowered g.nodes e next cap a id b → next < a.node →
    Stocked g e.part? (e.captureGroups.zipIdx cap) e.layout a b
  | .nothing void => by
    intro _
    rw [Expr.layout_of_isVoid void]
    exact .nothing _
  | .leaf single here => by
    intro before
    rw [Expr.layout_of_leafNode? single]
    exact .leaf single here before _
  | @Lowered.row _ items _ _ _ _ _ _ lowered few => by
    intro before
    have ⟨row, count⟩ := lowered.stocked before (Expr.concat items).part? 0
      (fun j path => by simp [Expr.part?])
    simpa only [Expr.layout, Expr.captureGroups, ← count, Nat.not_lt.mpr few, if_false,
      List.append_nil] using row
  | @Lowered.sequence _ items next _ a _ _ b lowered several here => by
    intro before
    have ⟨row, count⟩ := lowered.stocked before (Expr.concat items).part? 0
      (fun j path => by simp [Expr.part?])
    have entered := lowered.entered
    have children := lowered.children_inside
    have after : next < b.node := by omega
    have top := Inventory.plain .sequence here [] (Expr.part?_root (.concat items)) .sequence
      (List.forall_mem_cons.mpr ⟨after, fun child member => (children child member).2⟩)
    rw [Expr.layout, ← count, if_pos several, Expr.captureGroups]
    refine row.amid (c := a) (d := ⟨b.node + 1, b.slot⟩) ?_ .nothing top (by simp)
      (by simp [Mark.slots]) (by simp [Mark.slots]) (by simpa using .refl _)
      (fun z member => .inl member) ?_
    · intro path member
      have among : path ∈ (Expr.layoutAll 0 items).flatten := by
        simpa [List.mem_flatten] using member
      obtain ⟨i, rest, rfl, _⟩ := Expr.mem_layoutAll among
      simp
    · intro entries _ x member
      obtain rfl := List.mem_singleton.mp member
      exact .plain rfl
  | .group bracket tail lowered head => by
    intro before
    have entered := lowered.entered
    dsimp only at entered
    refine .group bracket before tail head (by omega) (by omega) (fun id member => ?_)
      (lowered.stocked (Nat.lt_succ_self _) _ 0 fun j path => ?_)
    · have := entered.2.2 id member
      omega
    · rw [Nat.zero_add]
      exact Expr.part?_of_asGroup? bracket j path
  | @Lowered.leafLoop _ body min max kind next cap a n bounded plain simple single leaf here => by
    intro before
    have inner := Stocked.leaf single leaf (Nat.zero_lt_of_lt before)
      (body.captureGroups.zipIdx cap)
    have links : ∀ m ∈ [next, a.node], m < a.node + 1 := by simpa using Nat.lt_succ_of_lt before
    rw [← Expr.part?_body plain min max] at inner
    have top := Inventory.plain .leafLoop here [] (Expr.part?_root (.repetition body min max kind))
      (.leafLoop plain) links
    rw [Expr.layout_loop plain bounded, Expr.numbered_loop plain, if_pos simple]
    refine (inner.under [0]).amid (c := a) (d := ⟨a.node + 2, a.slot⟩) (by simp) .nothing top
      (by simp) (by simp [Mark.slots]) (by simp [Mark.slots]) (by simpa using .refl _)
      (fun z member => .inl member) fun entries _ x member => ?_
    obtain rfl := List.mem_singleton.mp member
    exact .plain rfl
  | @Lowered.loop _ body min max kind next cap a id b bounded plain simple here tail lowered => by
    intro before
    have inner := lowered.stocked (Nat.lt_succ_self _)
    have entered := lowered.entered
    dsimp only at entered
    rw [← Expr.part?_body plain min max] at inner
    have owner := Graph.ownedLoop_iff.mpr here
    have within : a.node < id ∧ id < g.size := by
      refine ⟨by omega, ?_⟩
      obtain rfl | ⟨low, high⟩ := entered.2.2
      · exact (Array.getElem?_eq_some_iff.mp tail).1
      · exact inner.inside low high
    have first := Inventory.single here [] (Expr.part?_root (.repetition body min max kind))
      (.loop plain) (by simpa [Node.refs, Node.next?] using before) (by simpa using within)
      (by simp) (by simpa [Node.closedBy?] using ⟨_, tail⟩)
    have second := Inventory.single tail [] (Expr.part?_root (.repetition body min max kind))
      (.loopTail plain) (by simp [Node.refs]) (by simp) (by simpa using ⟨_, owner⟩)
      (by simp [Node.closedBy?])
    have own := Mark.slots_cons (show a.slot < b.slot by omega) (a.node + 2)
    rw [Expr.layout_loop plain bounded, Expr.numbered_loop plain, if_neg (by simp [simple]),
      ← List.append_nil ([] :: [] :: _)]
    refine (inner.under [0]).amid (c := a) (d := b) (by simp) (first.append second) .nothing
      (by simp) ?_ ?_ (by simpa [Node.number?] using .refl _) (fun z member => .inl member)
      fun entries _ x member => ?_
    · simp [Node.owned?, own]
    · simp [Graph.closed?, owner, own]
    · simp only [List.append_nil, List.mem_append, List.mem_singleton] at member
      obtain rfl | rfl := member <;> exact .plain rfl
theorem LoweredRow.stocked {items next cap a children id b} :
    LoweredRow g.nodes items next cap a children id b → next < a.node →
      ∀ (part? : Path → Option Expr) (i : Nat),
        (∀ j path, part? ((i + j) :: path) = items[j]?.bind (·.part? path)) →
        Stocked g part? ((Expr.captureGroupsAll i items).zipIdx cap)
          (Expr.layoutAll i items).reverse.flatten a b ∧
        children.length = (Expr.layoutAll i items).countP (!·.isEmpty)
  | .nil => by
    intro _ part? i _
    exact ⟨.nothing _, rfl⟩
  | @LoweredRow.cons _ item items _ _ _ _ _ b _ c later first => by
    intro before part? i parts
    have ⟨row, count⟩ := later.stocked before part? (i + 1) fun j path => by
      rw [Nat.add_right_comm]
      exact parts (j + 1) path
    have low := later.entered
    have high := first.entered
    have own := first.stocked (by omega)
    have here : (fun path => part? ([i] ++ path)) = item.part? := funext fun path => parts 0 path
    rw [← here] at own
    rw [Expr.numbered_cons, Expr.layoutAll, List.reverse_cons, List.flatten_append,
      List.flatten_singleton]
    refine ⟨.append (i < ·) row (own.under [i]) ⟨low.2.1, high.2.1⟩ (fun path member => ?_)
      (fun path member => ?_) (fun z member => ?_) (fun z member => ?_) List.perm_append_comm, ?_⟩
    · exact Expr.mem_layoutAll (by simpa [List.mem_flatten] using member)
    · exact (Expr.mem_under member).imp fun j same => by omega
    · exact Expr.mem_captureGroupsAll (List.fst_mem_of_mem_zipIdx member)
    · exact (Expr.mem_groupsUnder member).imp fun j same => by omega
    have length := own.length_paths
    rw [List.countP_cons, ← count, List.isEmpty_map]
    split
    · next through =>
      have skipped := first.skipped (by omega) through
      have void : item.layout = [] := List.length_eq_zero_iff.mp (by omega)
      simp [void]
    · next moved =>
      have taken : item.layout ≠ [] := by
        intro void
        rw [void, List.length_nil] at length
        omega
      simp [taken]
theorem LoweredBranches.stocked {branches next cap a ids b} :
    LoweredBranches g.nodes branches next cap a ids b → next < a.node →
      ∀ (part? : Path → Option Expr) (i : Nat),
        (∀ j path, part? ((i + j) :: path) = branches[j]?.bind (·.part? path)) →
        Stocked g part? ((Expr.captureGroupsAll i branches).zipIdx cap)
          (Expr.layoutAll i branches).flatten a b
  | .nil => by
    intro _ part? i _
    exact .nothing _
  | @LoweredBranches.cons _ branch branches _ _ _ _ b _ c first later => by
    intro before part? i parts
    have low := first.entered
    have high := later.entered
    have others := later.stocked (by omega) part? (i + 1) fun j path => by
      rw [Nat.add_right_comm]
      exact parts (j + 1) path
    have own := first.stocked before
    have here : (fun path => part? ([i] ++ path)) = branch.part? := funext fun path => parts 0 path
    rw [← here] at own
    rw [Expr.numbered_cons, Expr.layoutAll, List.flatten_cons]
    refine .append (i = ·) (own.under [i]) others ⟨low.2.1, high.2.1⟩
      (fun path member => ?_) (fun path member => ?_) (fun z member => ?_) (fun z member => ?_)
      (.refl _)
    · exact Expr.mem_under member
    · exact (Expr.mem_layoutAll member).imp fun j above => by omega
    · exact Expr.mem_groupsUnder member
    · have among := List.fst_mem_of_mem_zipIdx member
      exact (Expr.mem_captureGroupsAll among).imp fun j above => by omega
end

end BacktrackRegex
