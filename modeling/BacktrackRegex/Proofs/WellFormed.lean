import Mathlib.Data.List.Nodup
import BacktrackRegex.Proofs.Layouts

/-! Compiled graphs are well-formed. Links lead down but for the bodies of loops, each slot is owned
by one node and closed by one, capture groups bear their numbers in pre-order, and the frame of an
atomic group or a lookahead is what lies in it. -/
namespace BacktrackRegex

variable {g : Graph}

structure Graph.WellFormed (g : Graph) (e : Expr) : Prop where
  entry : g.entry < g.size
  succeed : ∀ id : NodeId, g.nodes[id]? = some .succeed ↔ id = Node.succeedId
  /-- All but the bodies of loops were made before what refers to them. -/
  refs : ∀ {id : NodeId} {n}, g.nodes[id]? = some n → ∀ m ∈ n.refs, m < id
  body : ∀ {id : NodeId} {l}, g.nodes[id]? = some (.loop l) → id < l.body ∧ l.body < g.size
  tailOwner : ∀ {id owner : NodeId}, g.nodes[id]? = some (.loopTail owner) →
    ∃ l, g.nodes[owner]? = some (.loop l)
  tail : ∀ {owner : NodeId} {l}, g.nodes[owner]? = some (.loop l) →
    ∃! id : NodeId, g.nodes[id]? = some (.loopTail owner)
  owner : ∀ k < g.slots, ∃! id : NodeId, ∃ n, g.nodes[id]? = some n ∧ n.owned? = some k
  closer : ∀ k < g.slots, ∃! id : NodeId, ∃ n, g.nodes[id]? = some n ∧ g.closed? n = some k
  slot : ∀ {id : NodeId} {n k}, g.nodes[id]? = some n →
    n.owned? = some k ∨ g.closed? n = some k → k < g.slots
  ends : ∀ {id : NodeId} {n n'}, g.nodes[id]? = some n → n.closedBy? id = some n' →
    ∃ m : NodeId, g.nodes[m]? = some n'
  groupEnd : ∀ {id m : NodeId} {slot capture capture' branches next next'},
    g.nodes[id]? = some (.group slot capture branches next) →
    g.nodes[m]? = some (.groupEnd slot capture' next') → capture' = capture ∧ next' = next
  source : ∀ {id : NodeId} {n}, g.nodes[id]? = some n → id ≠ Node.succeedId →
    ∃ path part, e.source? id = some path ∧ e.part? path = some part ∧ n.MadeFrom part
  size : g.size = e.layout.length + 1
  captures : g.captures = e.captureGroups.length
  number : ∀ {id : NodeId} {n k}, g.nodes[id]? = some n → n.number? = some k →
    1 ≤ k ∧ k ≤ g.captures ∧ ∃ path, e.source? id = some path ∧ (path, k) ∈ e.numberedGroups
  distinct : ∀ {id id' : NodeId} {n n' k}, g.nodes[id]? = some n → g.nodes[id']? = some n' →
    n.number? = some k → n'.number? = some k → id = id'
  /-- An atomic group or a lookahead puts back the slots of the nodes, and the capture groups, that
  are made from its part. -/
  frame : ∀ {id : NodeId} {n slot inner}, g.nodes[id]? = some n → n.frame? = some (slot, inner) →
    ∃ path, e.source? id = some path ∧ ∀ k,
      (inner.slots.contains k = true ↔ ∃ (m : NodeId) (n' : Node) (path' : Path), m ≠ id ∧
        g.nodes[m]? = some n' ∧ n'.owned? = some k ∧ e.source? m = some path' ∧ path <+: path') ∧
      (inner.captures.contains k = true ↔
        ∃ path', (path', k) ∈ e.numberedGroups ∧ path <+: path')

theorem eq_of_nodup_filterMap {f : α → Option β} {xs : List α} (distinct : (xs.filterMap f).Nodup)
    {x y : α} (left : x ∈ xs) (right : y ∈ xs) {k : β} (here : f x = some k)
    (there : f y = some k) : x = y := by
  induction xs with
  | nil => cases left
  | cons z xs ih =>
    have later {w : α} (member : w ∈ xs) (value : f w = some k) : k ∈ xs.filterMap f :=
      List.mem_filterMap.mpr ⟨w, member, value⟩
    obtain rfl | inside := List.mem_cons.mp left <;> obtain rfl | inside' := List.mem_cons.mp right
    · rfl
    · rw [List.filterMap_cons_some here] at distinct
      exact absurd (later inside' there) (List.nodup_cons.mp distinct).1
    · rw [List.filterMap_cons_some there] at distinct
      exact absurd (later inside here) (List.nodup_cons.mp distinct).1
    · refine ih ?_ inside inside'
      exact (List.Sublist.filterMap f (List.sublist_cons_self z xs)).nodup distinct

theorem Node.MadeFrom.ne_succeed {e : Expr} {n : Node} (made : n.MadeFrom e) : n ≠ .succeed := by
  cases made with
  | leaf single =>
    rintro rfl
    nomatch (Expr.leafNode_bare single).1
  | @tail _ kind => cases kind <;> simp [GroupKind.tail]
  | @head _ kind => cases kind <;> simp [GroupKind.head]
  | _ => simp

theorem Node.owned?_of_frame? {n : Node} {slot : Nat} {inner : Frame}
    (framed : n.frame? = some (slot, inner)) : n.owned? = some slot := by
  cases n <;> cases framed <;> rfl

def Inventory.Whole (g : Graph) (e : Expr) (entries : List Entry) : Prop :=
  Inventory g e.part? e.numberedGroups 1 g.size (.range' 0 g.slots) (.range' 0 g.slots) entries

namespace Inventory.Whole

variable {e : Expr} {entries : List Entry} {x y : Entry} {id : Nat} {n : Node}

theorem entry_later (whole : Whole g e entries) (node : g.nodes[id]? = some n)
    (later : id ≠ Node.succeedId) : ∃ x ∈ entries, x.id = id ∧ x.node = n := by
  have inside : id < g.size := (Array.getElem?_eq_some_iff.mp node).1
  have member : id ∈ entries.map (·.id) := by
    rw [whole.ids, List.mem_range'_1]
    exact ⟨Nat.pos_of_ne_zero later, by omega⟩
  obtain ⟨x, among, rfl⟩ := List.mem_map.mp member
  exact ⟨x, among, rfl, Option.some.inj ((whole.nodes x among).symm.trans node)⟩

theorem exists_entry (whole : Whole g e entries)
    (succeed : g.nodes[Node.succeedId]? = some .succeed) (node : g.nodes[id]? = some n)
    (other : n ≠ .succeed) : ∃ x ∈ entries, x.id = id ∧ x.node = n := by
  refine whole.entry_later node ?_
  rintro rfl
  exact other (Option.some.inj (node.symm.trans succeed))

theorem exists_entry_of (whole : Whole g e entries)
    (succeed : g.nodes[Node.succeedId]? = some .succeed) (node : g.nodes[id]? = some n)
    {f : Node → Option β} (root : f .succeed = none) {k : β} (has : f n = some k) :
    ∃ x ∈ entries, x.id = id ∧ x.node = n := by
  refine whole.exists_entry succeed node ?_
  rintro rfl
  cases root.symm.trans has

theorem source_eq (whole : Whole g e entries) (paths : entries.map (·.path) = e.layout)
    (member : x ∈ entries) : e.source? x.id = some x.path := by
  obtain ⟨i, here⟩ := List.getElem?_of_mem member
  have path : e.layout[i]? = some x.path := by
    rw [← paths, List.getElem?_map, here, Option.map_some]
  have id : (entries.map (·.id))[i]? = some x.id := by rw [List.getElem?_map, here, Option.map_some]
  rw [whole.ids] at id
  obtain ⟨_, number⟩ := List.getElem?_eq_some_iff.mp id
  rw [List.getElem_range'] at number
  have next : x.id = i + 1 := by omega
  rw [next, Expr.source?, path]

section Once

variable {f : Node → Option Nat} {k : Nat}

theorem eq_of_once (once : (entries.filterMap (f ·.node)).Perm (.range' 0 g.slots))
    (left : x ∈ entries) (right : y ∈ entries) (here : f x.node = some k)
    (there : f y.node = some k) : x = y := by
  have distinct : (entries.filterMap (f ·.node)).Nodup := once.nodup_iff.mpr List.nodup_range'
  exact eq_of_nodup_filterMap distinct left right here there

theorem id_eq_of_once (whole : Whole g e entries)
    (succeed : g.nodes[Node.succeedId]? = some .succeed)
    (once : (entries.filterMap (f ·.node)).Perm (.range' 0 g.slots)) (root : f .succeed = none)
    {m : Nat} {n' : Node} (node : g.nodes[id]? = some n) (node' : g.nodes[m]? = some n')
    (here : f n = some k) (there : f n' = some k) : id = m := by
  obtain ⟨x, left, rfl, rfl⟩ := whole.exists_entry_of succeed node root here
  obtain ⟨y, right, rfl, rfl⟩ := whole.exists_entry_of succeed node' root there
  rw [eq_of_once once left right here there]

theorem existsUnique_node (whole : Whole g e entries)
    (succeed : g.nodes[Node.succeedId]? = some .succeed)
    (once : (entries.filterMap (f ·.node)).Perm (.range' 0 g.slots)) (root : f .succeed = none)
    (inside : k < g.slots) : ∃! id : NodeId, ∃ n, g.nodes[id]? = some n ∧ f n = some k := by
  have member : k ∈ entries.filterMap (f ·.node) := once.mem_iff.mpr (by simpa using inside)
  obtain ⟨x, among, has⟩ := List.mem_filterMap.mp member
  refine ⟨x.id, ⟨x.node, whole.nodes x among, has⟩, ?_⟩
  rintro id ⟨n, node, has'⟩
  exact whole.id_eq_of_once succeed once root node (whole.nodes x among) has' has

theorem slot_lt (whole : Whole g e entries) (succeed : g.nodes[Node.succeedId]? = some .succeed)
    (once : (entries.filterMap (f ·.node)).Perm (.range' 0 g.slots)) (root : f .succeed = none)
    (node : g.nodes[id]? = some n) (has : f n = some k) : k < g.slots := by
  obtain ⟨x, member, rfl, rfl⟩ := whole.exists_entry_of succeed node root has
  have among := once.mem_iff.mp (List.mem_filterMap.mpr ⟨x, member, has⟩)
  simpa using among

end Once

theorem numbered (whole : Whole g e entries) (member : x ∈ entries) {k : Nat}
    (number : x.node.number? = some k) : (x.path, k) ∈ e.numberedGroups := by
  apply whole.numbers.subset
  refine List.mem_filterMap.mpr ⟨x, member, ?_⟩
  rw [number]
  rfl

theorem eq_of_number (whole : Whole g e entries) (left : x ∈ entries) (right : y ∈ entries)
    {k : Nat} (here : x.node.number? = some k) (there : y.node.number? = some k) : x = y := by
  have all : e.numberedGroups.Nodup := by
    refine List.Nodup.of_map Prod.snd ?_
    rw [Expr.numberedGroups, List.zipIdx_map_snd]
    exact List.nodup_range'
  have place {path : Path} (member : (path, k) ∈ e.numberedGroups) :
      e.captureGroups[k - 1]? = some path :=
    (List.mk_mem_zipIdx_iff_le_and_getElem?_sub.mp member).2
  have same : x.path = y.path := Option.some.inj
    ((place (whole.numbered left here)).symm.trans (place (whole.numbered right there)))
  obtain ⟨_, order, among⟩ := whole.numbers
  refine eq_of_nodup_filterMap (order.nodup_iff.mp (among.nodup all)) left right
    (k := (x.path, k)) ?_ ?_
  · simp only [here, Option.map_some]
  · simp only [there, Option.map_some, same]

theorem frame (whole : Whole g e entries) (succeed : g.nodes[Node.succeedId]? = some .succeed)
    (paths : entries.map (·.path) = e.layout) (framed : x.Framed e.numberedGroups entries)
    (member : x ∈ entries) {slot : Nat} {inner : Frame}
    (found : x.node.frame? = some (slot, inner)) (k : Nat) :
    (inner.slots.contains k = true ↔ ∃ (m : NodeId) (n' : Node) (path' : Path), m ≠ x.id ∧
      g.nodes[m]? = some n' ∧ n'.owned? = some k ∧ e.source? m = some path' ∧ x.path <+: path') ∧
    (inner.captures.contains k = true ↔
      ∃ path', (path', k) ∈ e.numberedGroups ∧ x.path <+: path') := by
  obtain ⟨slots, captures⟩ := framed slot inner found k
  have own := Node.owned?_of_frame? found
  refine ⟨slots.trans ⟨?_, ?_⟩, captures⟩
  · rintro ⟨other, y, among, owns, below⟩
    refine ⟨y.id, y.node, y.path, fun same => ?_, whole.nodes y among, owns,
      whole.source_eq paths among, below⟩
    have node : y.node = x.node :=
      Option.some.inj ((whole.nodes y among).symm.trans (same ▸ whole.nodes x member))
    rw [node, own] at owns
    exact other (Option.some.inj owns).symm
  · rintro ⟨m, n', path', other, node, owns, source, below⟩
    obtain ⟨y, among, rfl, rfl⟩ := whole.exists_entry_of succeed node (f := Node.owned?) rfl owns
    obtain rfl := Option.some.inj ((whole.source_eq paths among).symm.trans source)
    refine ⟨fun same => other ?_, y, among, owns, below⟩
    rw [eq_of_once whole.owned among member owns (same ▸ own)]

end Inventory.Whole

theorem Expr.Compiled.inventory {e : Expr} (compiled : e.Compiled g) : ∃ entries : List Entry,
    entries.map (·.path) = e.layout ∧ Inventory.Whole g e entries ∧
    ∀ x ∈ entries, x.Framed e.numberedGroups entries := by
  have lowered := compiled.lowered
  exact lowered.stocked Nat.zero_lt_one

/-- Every graph that an expression is compiled to is well-formed. -/
theorem Expr.compile_wellFormed {e : Expr} {g : Graph} (ok : e.compile = .ok g) :
    g.WellFormed e := by
  have compiled := compile_compiled ok
  obtain ⟨entries, paths, whole, framed⟩ := compiled.inventory
  have root := compiled.succeed
  constructor
  case entry =>
    obtain same | inside := compiled.lowered.entered.2.2
    · exact same ▸ (Array.getElem?_eq_some_iff.mp root).1
    · exact inside.2
  case succeed =>
    refine fun id => ⟨fun node => ?_, fun same => same ▸ root⟩
    refine Classical.byContradiction fun later => ?_
    obtain ⟨x, member, -, made⟩ := whole.entry_later node later
    obtain ⟨part, _, kind⟩ := whole.parts x member
    exact kind.ne_succeed made
  case refs =>
    intro id n node
    by_cases end' : n = .succeed
    · simp [end', Node.refs, Node.next?]
    · obtain ⟨x, member, rfl, rfl⟩ := whole.exists_entry root node end'
      exact whole.refs x member
  case body =>
    intro id l node
    obtain ⟨x, member, rfl, made⟩ := whole.exists_entry root node (by simp)
    exact whole.bodies x member l made
  case tailOwner =>
    intro id owner node
    obtain ⟨x, member, rfl, made⟩ := whole.exists_entry root node (by simp)
    obtain ⟨l, owned⟩ := whole.owners x member owner made
    exact ⟨l, Graph.ownedLoop_iff.mp owned⟩
  case tail =>
    intro owner l node
    obtain ⟨x, member, rfl, made⟩ := whole.exists_entry root node (by simp)
    obtain ⟨m, tail⟩ := whole.ends x member (.loopTail x.id) (by rw [made]; rfl)
    have closes : g.closed? (.loopTail x.id) = some l.slot := by
      rw [Graph.closed?, Graph.ownedLoop_iff.mpr node, Option.map_some]
    exact ⟨m, tail, fun m' tail' =>
      whole.id_eq_of_once root whole.closed rfl tail' tail closes closes⟩
  case owner => exact fun k inside => whole.existsUnique_node root whole.owned rfl inside
  case closer => exact fun k inside => whole.existsUnique_node root whole.closed rfl inside
  case slot =>
    intro id n k node has
    exact has.elim (whole.slot_lt root whole.owned rfl node)
      (whole.slot_lt root whole.closed rfl node)
  case ends =>
    intro id n n' node begins
    obtain ⟨x, member, rfl, rfl⟩ :=
      whole.exists_entry_of root node (f := (·.closedBy? id)) rfl begins
    exact whole.ends x member n' begins
  case groupEnd =>
    intro id m slot capture capture' branches next next' node node'
    obtain ⟨x, member, rfl, made⟩ := whole.exists_entry root node (by simp)
    obtain ⟨m', tail⟩ := whole.ends x member (.groupEnd slot capture next) (by rw [made]; rfl)
    obtain rfl := whole.id_eq_of_once root whole.closed rfl node' tail (k := slot) rfl rfl
    cases node'.symm.trans tail
    exact ⟨rfl, rfl⟩
  case source =>
    intro id n node later
    obtain ⟨x, member, rfl, rfl⟩ := whole.entry_later node later
    obtain ⟨part, found, made⟩ := whole.parts x member
    exact ⟨x.path, part, whole.source_eq paths member, found, made⟩
  case size =>
    have length := congrArg List.length paths
    have count := congrArg List.length whole.ids
    rw [List.length_map] at length count
    rw [List.length_range'] at count
    have := whole.grows
    omega
  case captures => rw [compiled.captures, captureGroups_length]
  case number =>
    intro id n k node number
    obtain ⟨x, member, rfl, rfl⟩ := whole.exists_entry_of root node (f := Node.number?) rfl number
    have among := whole.numbered member number
    have := List.mem_zipIdx among
    rw [captureGroups_length, ← compiled.captures] at this
    exact ⟨this.1, by omega, x.path, whole.source_eq paths member, among⟩
  case distinct =>
    intro id id' n n' k node node' number number'
    obtain ⟨x, member, rfl, rfl⟩ := whole.exists_entry_of root node (f := Node.number?) rfl number
    obtain ⟨y, member', rfl, rfl⟩ :=
      whole.exists_entry_of root node' (f := Node.number?) rfl number'
    rw [whole.eq_of_number member member' number number']
  case frame =>
    intro id n slot inner node found
    obtain ⟨x, member, rfl, rfl⟩ := whole.exists_entry_of root node (f := Node.frame?) rfl found
    exact ⟨x.path, whole.source_eq paths member,
      whole.frame root paths (framed x member) member found⟩

theorem Expr.compile_wellFormed_nested : ∃ e g,
    e = concat [group .capture (literal "a" false),
      repetition (group .capture (literal "b" false)) 0 (some 0) .greedy,
      group .lookAhead (concat [group .capture empty, anchor .endText]),
      repetition (alternation [group .capture (literal "c" false), empty]) 1 none .possessive] ∧
    e.compile = .ok g ∧ g.WellFormed e ∧
    e.numberedGroups = [([0], 1), ([1, 0], 2), ([2, 0, 0], 3), ([3, 0, 0, 0], 4)] := by
  let e := concat [group .capture (literal "a" false),
    repetition (group .capture (literal "b" false)) 0 (some 0) .greedy,
    group .lookAhead (concat [group .capture empty, anchor .endText]),
    repetition (alternation [group .capture (literal "c" false), empty]) 1 none .possessive]
  obtain ⟨g, ok⟩ : ∃ g, e.compile = .ok g := compile_of_check rfl
  exact ⟨e, g, rfl, ok, compile_wellFormed ok, rfl⟩

end BacktrackRegex
