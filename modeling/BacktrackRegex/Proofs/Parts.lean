import BacktrackRegex.Proofs.Layouts

/-! The stretches that parts of an expression become. Wherever a part stands, its nodes form one
stretch of the arena; from outside, nothing leads into it but to the node where it is entered, and
nothing sets the captures of the part. -/
namespace BacktrackRegex

structure Stretch where
  nodes : Interval
  entry : Nat
  captures : Interval

namespace Stretch

def Admits (x : Stretch) (m : Nat) : Prop :=
  m = x.entry ∨ m < x.nodes.start ∨ x.nodes.stop ≤ m

def Holds (x : Stretch) (g : Graph) (part : Expr) : Prop :=
  x.nodes.start = x.nodes.stop ∨ ∃ next cap a b, Lowered g.nodes part next cap a x.entry b ∧
    next < a.node ∧ a.node = x.nodes.start ∧ b.node = x.nodes.stop

structure Spares (x : Stretch) (g : Graph) (n : Node) : Prop where
  links : ∀ m ∈ g.links n, x.Admits m
  capture : ∀ k, n.capture? = some k → k < x.captures.start ∨ x.captures.stop ≤ k

structure Among (x : Stretch) (a b : Nat) (captures : Interval) (entries : List NodeId) :
    Prop where
  nodes : a ≤ x.nodes.start ∧ x.nodes.start ≤ x.nodes.stop ∧ x.nodes.stop ≤ b
  captures : captures.start ≤ x.captures.start ∧ x.captures.stop ≤ captures.stop
  entries : ∀ id ∈ entries, x.Admits id

variable {x : Stretch} {g : Graph} {a b m : Nat} {captures : Interval} {entries : List NodeId}
  {n : Node}

theorem Among.admits (among : x.Among a b captures entries) (outside : m < a ∨ b ≤ m) :
    x.Admits m := by
  have := among.nodes
  unfold Admits
  omega

theorem Among.spares (among : x.Among a b captures entries) {c d : Mark} {next : Nat} {f : Frame}
    (placed : Placed g (c.Within d next) f n) (pos : 0 < a) (outside : d.node ≤ a ∨ b ≤ c.node)
    (after : x.Admits next)
    (apart : f.captures.stop ≤ captures.start ∨ captures.stop ≤ f.captures.start) :
    x.Spares g n := by
  constructor
  case links =>
    intro m member
    obtain inside | rfl | rfl := placed.links m member
    · exact among.admits (by omega)
    · exact after
    · exact among.admits (.inl pos)
  case capture =>
    intro k own
    have := Interval.contains_iff.mp (placed.capture k own)
    have := among.captures
    omega

theorem Spares.tail {kind : GroupKind} {slot cap : Nat} {next : NodeId} (after : x.Admits next)
    (own : kind = .capture → cap < x.captures.start) : x.Spares g (kind.tail slot cap next) := by
  cases kind <;> constructor <;> simp_all [GroupKind.tail, Graph.links, Node.capture?]

theorem Spares.head {kind : GroupKind} {slot cap : Nat} {branches : List NodeId} {inner : Frame}
    {next : NodeId} (after : x.Admits next) (entries : ∀ id ∈ branches, x.Admits id) :
    x.Spares g (kind.head slot cap branches inner next) := by
  cases kind <;> constructor <;> simp_all [GroupKind.head, Graph.links, Node.capture?]

end Stretch

/-- The stretch of the part at a place, among the nodes from `a` up to `b` that are made from
`paths`. They have captures of the given numbers, are entered at `entries`, and are those of the
numbered groups. -/
structure Lodged (g : Graph) (x : Stretch) (path : Path) (paths : List Path)
    (groups : List (Path × Nat)) (a b : Nat) (captures : Interval) (entries : List NodeId) :
    Prop where
  among : x.Among a b captures entries
  others : ∀ {m : Nat} {n}, a ≤ m → m < b → m < x.nodes.start ∨ x.nodes.stop ≤ m →
    g.nodes[m]? = some n → x.Spares g n
  places : ∀ {m}, x.nodes.start ≤ m → m < x.nodes.stop →
    ∃ place, paths[m - a]? = some place ∧ path <+: place
  groups : ∀ {place k}, (place, k) ∈ groups → path <+: place →
    x.captures.start ≤ k ∧ k < x.captures.stop

def Surrounds (g : Graph) (a b c d : Nat) (captures : Interval) (entries outer : List NodeId) :
    Prop :=
  ∀ x : Stretch, x.Among c d captures entries → (∀ id ∈ outer, x.Admits id) ∧
    ∀ {m : Nat} {n}, a ≤ m → m < b → m < c ∨ d ≤ m → g.nodes[m]? = some n → x.Spares g n

def Lodges (g : Graph) (part : Expr) (path : Path) (paths : List Path)
    (groups : List (Path × Nat)) (a b : Nat) (captures : Interval) (entries : List NodeId) : Prop :=
  ∃ x : Stretch, x.Holds g part ∧ Lodged g x path paths groups a b captures entries

namespace Expr

theorem lt_of_mem_numbered {e : Expr} {cap k : Nat} {place : Path}
    (member : (place, k) ∈ e.captureGroups.zipIdx cap) : cap ≤ k ∧ k < cap + e.captureCount := by
  have bounds := List.mem_zipIdx member
  rw [captureGroups_length] at bounds
  exact ⟨bounds.1, by omega⟩

theorem exists_of_mem_groupsUnder {pre place : Path} {k : Nat} {groups : List (Path × Nat)}
    (member : (place, k) ∈ groupsUnder pre groups) :
    ∃ rest, place = pre ++ rest ∧ (rest, k) ∈ groups := by
  obtain ⟨⟨rest, k⟩, among, same⟩ := List.mem_map.mp member
  cases same
  exact ⟨rest, rfl, among⟩

theorem mem_numbered_cons {i : Nat} {e : Expr} {es : List Expr} {cap k : Nat} {place : Path}
    (member : (place, k) ∈ (captureGroupsAll i (e :: es)).zipIdx cap) :
    (∃ rest, place = i :: rest ∧ (rest, k) ∈ e.captureGroups.zipIdx cap) ∨
      (place.In (i + 1 ≤ ·) ∧
        (place, k) ∈ (captureGroupsAll (i + 1) es).zipIdx (cap + e.captureCount)) := by
  rw [numbered_cons, List.mem_append] at member
  obtain first | later := member
  · exact .inl (exists_of_mem_groupsUnder first)
  · exact .inr ⟨mem_captureGroupsAll (List.fst_mem_of_mem_zipIdx later), later⟩

theorem part?_of_leafNode? {e : Expr} {next : NodeId} {n : Node} {path : Path}
    (single : e.leafNode? next = some n) (deep : path ≠ []) : e.part? path = none := by
  revert single
  cases path with
  | nil => exact absurd rfl deep
  | cons i path => fun_cases leafNode? e next <;> simp [part?]

theorem part?_bracket {e part : Expr} {kind : GroupKind} {es : List Expr} {path : Path}
    (bracket : e.asGroup? = some (kind, es)) (found : e.part? path = some part) (deep : path ≠ [])
    (other : ∀ branches, part ≠ alternation branches) :
    ∃ i rest, path = e.branchesAt ++ i :: rest ∧ es[i]?.bind (·.part? rest) = some part := by
  suffices shaped : ∃ i rest, path = e.branchesAt ++ i :: rest by
    obtain ⟨i, rest, rfl⟩ := shaped
    exact ⟨i, rest, rfl, part?_of_asGroup? bracket i rest ▸ found⟩
  obtain ⟨i, path, rfl⟩ := List.exists_cons_of_ne_nil deep
  by_cases merged : e.branchesAt = []
  · exact ⟨i, path, by simp [merged]⟩
  · obtain ⟨kind, branches, rfl⟩ : ∃ kind branches, e = group kind (alternation branches) := by
      revert merged
      fun_cases branchesAt e <;> simp
    cases i with
    | succ i => simp [part?] at found
    | zero =>
      cases path with
      | nil =>
        rw [part?, part?_root] at found
        exact absurd (Option.some.inj found).symm (other branches)
      | cons j rest => exact ⟨j, rest, rfl⟩

theorem part?_repetition {body part : Expr} {min : Nat} {max : Option Nat} {kind : RepeatKind}
    {path : Path} (plain : kind ≠ .possessive)
    (found : (repetition body min max kind).part? path = some part) (deep : path ≠ []) :
    ∃ rest, path = 0 :: rest ∧ body.part? rest = some part := by
  obtain ⟨i, rest, rfl⟩ := List.exists_cons_of_ne_nil deep
  cases i with
  | zero =>
    have inner : (fun path => (repetition body min max kind).part? ([0] ++ path)) = body.part? :=
      part?_body plain min max
    exact ⟨rest, rfl, congrFun inner rest ▸ found⟩
  | succ i => simp [part?] at found

end Expr

namespace Lodges

variable {g : Graph} {part : Expr} {path : Path} {paths : List Path}
  {groups : List (Path × Nat)} {a b c d : Nat} {captures : Interval} {entries : List NodeId}

theorem amid (inner : Lodges g part path paths groups c d captures entries) (pre : Path)
    (before after : List Path) (groups' : List (Path × Nat)) (captures' : Interval)
    (outer : List NodeId) (low : a ≤ c) (high : d ≤ b) (fits : before.length = c - a)
    (more : captures'.start ≤ captures.start ∧ captures.stop ≤ captures'.stop)
    (around : Surrounds g a b c d captures entries outer)
    (numbered : ∀ {place k}, (place, k) ∈ groups' → pre ++ path <+: place →
      ∃ rest, place = pre ++ rest ∧ (rest, k) ∈ groups) :
    Lodges g part (pre ++ path) (before ++ paths.map (pre ++ ·) ++ after) groups' a b captures'
      outer := by
  obtain ⟨x, holds, lodged⟩ := inner
  obtain ⟨admitted, spared⟩ := around x lodged.among
  have inside := lodged.among.nodes
  have numbers := lodged.among.captures
  refine ⟨x, holds, ⟨⟨by omega, by omega, admitted⟩, ?_, ?_, ?_⟩⟩
  · intro m n above below outside node
    rcases Nat.lt_or_ge m c with early | from'
    · exact spared above below (.inl early) node
    · rcases Nat.lt_or_ge m d with until' | late
      · exact lodged.others from' until' outside node
      · exact spared above below (.inr late) node
  · intro m above below
    obtain ⟨place, found, under⟩ := lodged.places above below
    obtain ⟨bound, _⟩ := List.getElem?_eq_some_iff.mp found
    refine ⟨pre ++ place, ?_, (List.prefix_append_right_inj pre).mpr under⟩
    have index : m - a - before.length = m - c := by omega
    rw [List.append_assoc, List.getElem?_append_right (by omega), index,
      List.getElem?_append_left (by simpa using bound), List.getElem?_map, found]
    rfl
  · intro place k member under
    obtain ⟨rest, rfl, among⟩ := numbered member under
    exact lodged.groups among ((List.prefix_append_right_inj pre).mp under)

theorem nothing {e : Expr} {cap : Nat} (entry : NodeId) (path : Path) (paths : List Path)
    (a : Nat) : Lodges g part path paths (e.captureGroups.zipIdx cap) a a
      ⟨cap, cap + e.captureCount⟩ [entry] := by
  refine ⟨⟨⟨a, a⟩, entry, ⟨cap, cap + e.captureCount⟩⟩, .inl rfl, ⟨?_, ?_, ?_, ?_⟩⟩
  · exact ⟨⟨Nat.le_refl a, Nat.le_refl a, Nat.le_refl a⟩, ⟨Nat.le_refl _, Nat.le_refl _⟩,
      by simp [Stretch.Admits]⟩
  · exact fun above below => absurd above (Nat.not_le.mpr below)
  · exact fun above below => absurd above (Nat.not_le.mpr below)
  · exact fun member _ => Expr.lt_of_mem_numbered member

theorem whole {e : Expr} {next cap : Nat} {a b : Mark} {id : NodeId}
    (lowered : Lowered g.nodes e next cap a id b) (before : next < a.node) :
    Lodges g e [] e.layout (e.captureGroups.zipIdx cap) a.node b.node ⟨cap, cap + e.captureCount⟩
      [id] := by
  have length := (lowered.stocked before).length_paths
  refine ⟨⟨⟨a.node, b.node⟩, id, ⟨cap, cap + e.captureCount⟩⟩,
    .inr ⟨next, cap, a, b, lowered, before, rfl, rfl⟩, ⟨?_, ?_, ?_, ?_⟩⟩
  · exact ⟨⟨Nat.le_refl _, lowered.entered.1, Nat.le_refl _⟩, ⟨Nat.le_refl _, Nat.le_refl _⟩,
      by simp [Stretch.Admits]⟩
  · intro m n above below outside
    dsimp only at outside
    omega
  · intro m above below
    dsimp only at above below
    exact ⟨e.layout[m - a.node], List.getElem?_eq_getElem (by omega), List.nil_prefix⟩
  · exact fun member _ => Expr.lt_of_mem_numbered member

theorem of_deep {e : Expr} {next cap : Nat} {a b : Mark} {id : NodeId}
    (lowered : Lowered g.nodes e next cap a id b) (before : next < a.node)
    (found : e.part? path = some part)
    (deep : path ≠ [] → Lodges g part path e.layout (e.captureGroups.zipIdx cap) a.node b.node
      ⟨cap, cap + e.captureCount⟩ [id]) :
    Lodges g part path e.layout (e.captureGroups.zipIdx cap) a.node b.node
      ⟨cap, cap + e.captureCount⟩ [id] := by
  by_cases root : path = []
  · subst root
    rw [Expr.part?_root] at found
    cases found
    exact .whole lowered before
  · exact deep root

theorem leaf {e : Expr} {next cap : Nat} {a : Mark} {n : Node}
    (single : e.leafNode? next = some n) (here : g.nodes[a.node]? = some n)
    (before : next < a.node) (found : e.part? path = some part) :
    Lodges g part path e.layout (e.captureGroups.zipIdx cap) a.node (a.node + 1)
      ⟨cap, cap + e.captureCount⟩ [a.node] := by
  apply Lodges.of_deep (.leaf single here) before found
  intro deep
  rw [Expr.part?_of_leafNode? single deep] at found
  cases found

theorem inBody {body : Expr} {cap : Nat} {kind : RepeatKind}
    (inner : Lodges g part path paths (body.captureGroups.zipIdx cap) c d
      ⟨cap, cap + body.captureCount⟩ entries) (plain : kind ≠ .possessive) (min : Nat)
    (max : Option Nat) (before after : List Path) (outer : List NodeId) (low : a ≤ c) (high : d ≤ b)
    (fits : before.length = c - a)
    (around : Surrounds g a b c d ⟨cap, cap + body.captureCount⟩ entries outer) :
    Lodges g part (0 :: path) (before ++ paths.map ([0] ++ ·) ++ after)
      ((Expr.repetition body min max kind).captureGroups.zipIdx cap) a b
      ⟨cap, cap + (Expr.repetition body min max kind).captureCount⟩ outer := by
  refine inner.amid [0] before after _ _ _ low high fits ⟨Nat.le_refl _, Nat.le_refl _⟩ around
    fun member _ => ?_
  rw [Expr.numbered_loop plain] at member
  exact Expr.exists_of_mem_groupsUnder member

section Rows

variable {e : Expr} {es : List Expr} {cap i j : Nat}

theorem first (inner : Lodges g part path e.layout (e.captureGroups.zipIdx cap) c d
      ⟨cap, cap + e.captureCount⟩ entries) (i : Nat) (es : List Expr) (before after : List Path)
    (outer : List NodeId) (low : a ≤ c) (high : d ≤ b) (fits : before.length = c - a)
    (around : Surrounds g a b c d ⟨cap, cap + e.captureCount⟩ entries outer) :
    Lodges g part (i :: path) (before ++ e.layout.map ([i] ++ ·) ++ after)
      ((Expr.captureGroupsAll i (e :: es)).zipIdx cap) a b
      ⟨cap, cap + Expr.captureCountAll (e :: es)⟩ outer := by
  refine inner.amid [i] before after _ _ _ low high fits ?_ around fun {place k} member under => ?_
  · simp only [Expr.captureCountAll]
    omega
  · obtain inside | ⟨⟨j, rest, rfl, later⟩, _⟩ := Expr.mem_numbered_cons member
    · exact inside
    · have := (List.cons_prefix_cons.mp under).1
      omega

theorem later (inner : Lodges g part ((i + 1 + j) :: path) paths
      ((Expr.captureGroupsAll (i + 1) es).zipIdx (cap + e.captureCount)) c d
      ⟨cap + e.captureCount, cap + e.captureCount + Expr.captureCountAll es⟩ entries)
    (before after : List Path) (outer : List NodeId) (low : a ≤ c) (high : d ≤ b)
    (fits : before.length = c - a)
    (around : Surrounds g a b c d
      ⟨cap + e.captureCount, cap + e.captureCount + Expr.captureCountAll es⟩ entries outer) :
    Lodges g part ((i + (j + 1)) :: path) (before ++ paths ++ after)
      ((Expr.captureGroupsAll i (e :: es)).zipIdx cap) a b
      ⟨cap, cap + Expr.captureCountAll (e :: es)⟩ outer := by
  have same : i + 1 + j = i + (j + 1) := by omega
  have whole := inner.amid [] before after ((Expr.captureGroupsAll i (e :: es)).zipIdx cap)
    ⟨cap, cap + Expr.captureCountAll (e :: es)⟩ _ low high fits ?_ around ?_
  · simpa [same] using whole
  · simp only [Expr.captureCountAll]
    omega
  · intro place k member under
    obtain ⟨rest, rfl, _⟩ | ⟨_, inside⟩ := Expr.mem_numbered_cons member
    · have := (List.cons_prefix_cons.mp under).1
      omega
    · exact ⟨place, rfl, inside⟩

end Rows

end Lodges

variable {g : Graph}

theorem LoweredRow.length_layout {items next cap a children id b}
    (lowered : LoweredRow g.nodes items next cap a children id b) (before : next < a.node)
    (i : Nat) : (Expr.layoutAll i items).reverse.flatten.length = b.node - a.node := by
  let part? (path : Path) := items[path.headD 0 - i]?.bind (·.part? path.tail)
  have stocked := (lowered.stocked before part? i (by simp [part?])).1
  exact stocked.length_paths

mutual
theorem Lowered.lodges (succeed : g.nodes[Node.succeedId]? = some .succeed)
    {e part next cap a id b path} : Lowered g.nodes e next cap a id b → next < a.node →
      e.part? path = some part → (∀ branches, part ≠ .alternation branches) →
      Lodges g part path e.layout (e.captureGroups.zipIdx cap) a.node b.node
        ⟨cap, cap + e.captureCount⟩ [id]
  | .nothing void => by
    intro before found _
    refine .of_deep (.nothing void) before found fun _ => ?_
    exact .nothing next path _ a.node
  | .leaf single here => by
    intro before found _
    exact .leaf single here before found
  | .row lowered few => by
    intro before found other
    refine .of_deep (.row lowered few) before found fun deep => ?_
    obtain ⟨i, rest, rfl⟩ := List.exists_cons_of_ne_nil deep
    have inner : Lodges g part ((0 + i) :: rest) _ _ _ _ _ _ :=
      lowered.lodges succeed before found other
    have whole (after : List Path) := inner.amid [] [] after _ _ _ (Nat.le_refl _)
      (Nat.le_refl _) (by simp) ⟨Nat.le_refl _, Nat.le_refl _⟩
      (fun x among => ⟨among.entries, fun above below outside => by omega⟩)
      (fun member _ => ⟨_, rfl, member⟩)
    rw [Expr.layout, Expr.captureGroups, Expr.captureCount]
    simpa using whole _
  | .sequence (b := b) lowered several here => by
    intro before found other
    refine .of_deep (.sequence lowered several here) before found fun deep => ?_
    obtain ⟨i, rest, rfl⟩ := List.exists_cons_of_ne_nil deep
    have inner : Lodges g part ((0 + i) :: rest) _ _ _ _ _ _ :=
      lowered.lodges succeed before found other
    have whole (after : List Path) := inner.amid [] [] after _ _ [b.node] (Nat.le_refl _)
      (Nat.le_succ _) (by simp) ⟨Nat.le_refl _, Nat.le_refl _⟩
      (fun x among => ⟨by simpa using among.admits (.inr (Nat.le_refl _)),
        fun {m n} above below outside node => by
          obtain rfl : m = b.node := by omega
          cases here.symm.trans node
          refine ⟨?_, by simp [Node.capture?]⟩
          simpa [Graph.links, lowered.head] using among.entries⟩)
      (fun member _ => ⟨_, rfl, member⟩)
    rw [Expr.layout, Expr.captureGroups, Expr.captureCount]
    simpa using whole _
  | @Lowered.group _ e kind es next cap a ids b bracket tail lowered head => by
    intro before found other
    refine .of_deep (.group bracket tail lowered head) before found fun deep => ?_
    obtain ⟨i, rest, rfl, within⟩ := Expr.part?_bracket bracket found deep other
    have inner : Lodges g part ((0 + i) :: rest) _ _ _ _ _ _ :=
      lowered.lodges succeed (Nat.lt_succ_self a.node) within other
    have count := Expr.captureCount_of_asGroup? bracket
    have whole := inner.amid e.branchesAt [[]] [[]] (e.captureGroups.zipIdx cap)
      ⟨cap, cap + e.captureCount⟩ [b.node]
      (Nat.le_succ a.node) (Nat.le_succ b.node) (by simp) ?_ ?_ ?_
    · simpa [Expr.layout_of_asGroup? bracket] using whole
    · simp only [count, GroupKind.firstInner]
      split <;> omega
    · refine fun x among => ⟨by simpa using among.admits (.inr (Nat.le_refl _)), ?_⟩
      intro m n above below outside node
      have after : x.Admits next := among.admits (.inl (Nat.lt_succ_of_lt before))
      -- Only the two nodes of the group itself are not among those of its branches.
      obtain rfl | rfl : m = a.node ∨ m = b.node := by dsimp only at outside; omega
      · cases tail.symm.trans node
        refine .tail after fun capture => ?_
        have first := among.captures.1
        simp only [GroupKind.firstInner, capture, if_true] at first
        exact first
      · cases head.symm.trans node
        exact .head after among.entries
    · intro place k member under
      rw [Expr.numbered_of_asGroup? bracket, List.mem_append] at member
      refine Expr.exists_of_mem_groupsUnder (member.resolve_left fun own => ?_)
      obtain rfl : place = [] := by split at own <;> simp_all
      simp at under
  | @Lowered.leafLoop _ body min max kind next cap a n bounded plain simple single leaf here => by
    intro before found other
    refine .of_deep (.leafLoop bounded plain simple single leaf here) before found fun deep => ?_
    obtain ⟨rest, rfl, within⟩ := Expr.part?_repetition plain found deep
    have inner : Lodges g part rest _ (body.captureGroups.zipIdx cap) _ _ _ _ :=
      .leaf single leaf (Nat.zero_lt_of_lt before) within
    have whole := inner.inBody plain min max [] [[]] [a.node + 1] (Nat.le_refl a.node)
      (Nat.le_succ (a.node + 1)) (by simp) fun x among => ⟨?_, ?_⟩
    · rw [Expr.layout_loop plain bounded, simple]
      simpa [Expr.layout_of_leafNode? single] using whole
    · simpa using among.admits (.inr (Nat.le_refl _))
    · intro m n above below outside node
      obtain rfl : m = a.node + 1 := by omega
      cases here.symm.trans node
      refine ⟨?_, by simp [Node.capture?]⟩
      simpa [Graph.links] using among.admits (.inl before)
  | @Lowered.loop _ body min max kind next cap a id b bounded plain simple here tail lowered => by
    intro before found other
    refine .of_deep (.loop bounded plain simple here tail lowered) before found fun deep => ?_
    obtain ⟨rest, rfl, within⟩ := Expr.part?_repetition plain found deep
    have inner : Lodges g part rest _ _ _ _ _ _ :=
      lowered.lodges succeed (Nat.lt_succ_self _) within other
    have whole := inner.inBody plain min max [[], []] [] [a.node] (Nat.le_add_right a.node 2)
      (Nat.le_refl b.node) (by simp) fun x among => ⟨?_, ?_⟩
    · rw [Expr.layout_loop plain bounded, simple]
      simpa using whole
    · simpa using among.admits (.inl (Nat.lt_add_of_pos_right Nat.two_pos))
    · intro m n above below outside node
      have links : ∀ l ∈ [id, next], x.Admits l := by
        simpa using ⟨among.entries id (by simp), among.admits (.inl (by dsimp only; omega))⟩
      have high := lowered.entered.1
      dsimp only at outside high
      obtain rfl | rfl : m = a.node ∨ m = a.node + 1 := by omega
      · cases here.symm.trans node
        exact ⟨links, by simp [Node.capture?]⟩
      · cases tail.symm.trans node
        have owner := Graph.ownedLoop_iff.mpr here
        exact ⟨by simpa [Graph.links, owner] using links, by simp [Node.capture?]⟩
theorem LoweredRow.lodges (succeed : g.nodes[Node.succeedId]? = some .succeed)
    {items part next cap a children id b path i j} :
    LoweredRow g.nodes items next cap a children id b → next < a.node →
      items[j]?.bind (·.part? path) = some part → (∀ branches, part ≠ .alternation branches) →
      Lodges g part ((i + j) :: path) (Expr.layoutAll i items).reverse.flatten
        ((Expr.captureGroupsAll i items).zipIdx cap) a.node b.node
        ⟨cap, cap + Expr.captureCountAll items⟩ [id]
  | .nil => by
    intro before found _
    simp at found
  | @LoweredRow.cons _ item items _ _ a _ entry b id c later first => by
    intro before found other
    -- A row is lowered from its last item, so the nodes of the later ones come first.
    have low := later.entered
    have high := first.entered
    rw [Expr.layoutAll, List.reverse_cons, List.flatten_append, List.flatten_singleton]
    cases j with
    | zero =>
      have inner : Lodges g part path _ _ _ _ _ _ :=
        first.lodges succeed (by omega) (by simpa using found) other
      have whole := inner.first i items (Expr.layoutAll (i + 1) items).reverse.flatten [] _ low.1
        (Nat.le_refl _) (later.length_layout before (i + 1))
        fun x among => ⟨among.entries, fun above below outside node => ?_⟩
      · simpa using whole
      · exact among.spares (later.placed succeed above (by omega) node) (by omega)
          (.inl (Nat.le_refl _)) (among.admits (.inl (by omega))) (.inr (Nat.le_refl _))
    | succ j =>
      have inner : Lodges g part ((i + 1 + j) :: path) _ _ _ _ _ _ :=
        later.lodges succeed before (by simpa using found) other
      refine inner.later (e := item) [] (item.layout.map (i :: ·)) _ (Nat.le_refl _) high.1
        (by simp) fun x among => ⟨?_, fun above below outside node => ?_⟩
      · have entered : x.Admits entry := among.entries entry (by simp)
        simp only [List.mem_singleton, forall_eq]
        obtain rfl | inside := high.2.2
        · exact entered
        · exact among.admits (.inr inside.1)
      · exact among.spares (first.placed succeed (by omega) below node) (by omega)
          (.inr (Nat.le_refl _)) (among.entries entry (by simp)) (.inl (Nat.le_refl _))
theorem LoweredBranches.lodges (succeed : g.nodes[Node.succeedId]? = some .succeed)
    {branches part next cap a ids b path i j} :
    LoweredBranches g.nodes branches next cap a ids b → next < a.node →
      branches[j]?.bind (·.part? path) = some part → (∀ branches, part ≠ .alternation branches) →
      Lodges g part ((i + j) :: path) (Expr.layoutAll i branches).flatten
        ((Expr.captureGroupsAll i branches).zipIdx cap) a.node b.node
        ⟨cap, cap + Expr.captureCountAll branches⟩ ids
  | .nil => by
    intro before found _
    simp at found
  | @LoweredBranches.cons _ branch branches next _ a id b ids c first later => by
    intro before found other
    have low := first.entered
    have high := later.entered
    rw [Expr.layoutAll, List.flatten_cons]
    cases j with
    | zero =>
      have inner : Lodges g part path _ _ _ _ _ _ :=
        first.lodges succeed before (by simpa using found) other
      refine inner.first i branches [] (Expr.layoutAll (i + 1) branches).flatten _
        (Nat.le_refl _) high.1 (by simp) fun x among => ⟨?_, fun above below outside node => ?_⟩
      · have after : x.Admits next := among.admits (.inl before)
        intro id' member
        obtain rfl | member := List.mem_cons.mp member
        · exact among.entries _ (by simp)
        · obtain rfl | inside := high.2.2 id' member
          · exact after
          · exact among.admits (.inr inside.1)
      · exact among.spares (later.placed succeed (by omega) below node) (by omega)
          (.inr (Nat.le_refl _)) (among.admits (.inl before)) (.inr (Nat.le_refl _))
    | succ j =>
      have inner : Lodges g part ((i + 1 + j) :: path) _ _ _ _ _ _ :=
        later.lodges succeed (by omega) (by simpa using found) other
      have whole := inner.later (e := branch) (branch.layout.map (i :: ·)) [] (id :: ids) low.1
        (Nat.le_refl _) ?_ fun x among => ⟨?_, fun above below outside node => ?_⟩
      · simpa using whole
      · rw [List.length_map, (first.stocked before).length_paths]
      · have after : x.Admits next := among.admits (.inl (by omega))
        intro id' member
        obtain rfl | member := List.mem_cons.mp member
        · obtain rfl | inside := low.2.2
          · exact after
          · exact among.admits (.inl inside.2)
        · exact among.entries id' member
      · exact among.spares (first.placed succeed above (by omega) node) (by omega)
          (.inl (Nat.le_refl _)) (among.admits (.inl (by omega))) (.inl (Nat.le_refl _))
end

/-- A part of a compiled expression, unless it is an alternation that a group took over, has its
stretch. -/
theorem Expr.Compiled.lodges {e part : Expr} {path : Path} (compiled : e.Compiled g)
    (found : e.part? path = some part) (other : ∀ branches, part ≠ alternation branches) :
    Lodges g part path e.layout e.numberedGroups 1 g.size ⟨1, 1 + e.captureCount⟩ [g.entry] := by
  have lowered := compiled.lowered
  exact lowered.lodges compiled.succeed Nat.zero_lt_one found other

end BacktrackRegex
