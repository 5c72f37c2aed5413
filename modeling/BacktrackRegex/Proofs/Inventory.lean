import Mathlib.Data.List.Perm.Subperm
import BacktrackRegex.Expr.Layout
import BacktrackRegex.Proofs.Stretches

/-! An inventory of the nodes of a compiled expression: for each node the part it is made from, and
for a whole stretch which slots its nodes own and close and which capture groups they begin. -/
namespace BacktrackRegex

namespace Node

def owned? : Node → Option Nat
  | group slot _ _ _ | atomic slot _ _ _ | lookAhead slot _ _ _ _ => some slot
  | loop l => some l.slot
  | _ => none

def closedBy? (id : NodeId) : Node → Option Node
  | group slot capture _ next => some (groupEnd slot capture next)
  | atomic slot _ _ _ | lookAhead slot _ _ _ _ => some (commit slot)
  | loop _ => some (loopTail id)
  | _ => none

def number? : Node → Option Nat
  | group _ capture _ _ => capture
  | _ => none

def frame? : Node → Option (Nat × Frame)
  | atomic slot _ inner _ | lookAhead slot _ _ inner _ => some (slot, inner)
  | _ => none

def refs : Node → List NodeId
  | sequence children next => next :: children
  | group _ _ branches next | atomic _ branches _ next | lookAhead _ _ branches _ next =>
    next :: branches
  | leafLoop leaf _ _ _ next => [next, leaf]
  | loopTail owner => [owner]
  | n => n.next?.toList

/-- A node is of the kind that its part calls for. -/
inductive MadeFrom : Expr → Node → Prop
  | leaf {e next n} (single : e.leafNode? next = some n) : MadeFrom e n
  | sequence {items children next} : MadeFrom (.concat items) (.sequence children next)
  | tail {e kind branches slot cap next} (bracket : e.asGroup? = some (kind, branches)) :
      MadeFrom e (kind.tail slot cap next)
  | head {e kind branches slot cap ids inner next}
      (bracket : e.asGroup? = some (kind, branches)) :
      MadeFrom e (kind.head slot cap ids inner next)
  | leafLoop {body min max kind leaf next} (plain : kind ≠ .possessive) :
      MadeFrom (.repetition body min max kind) (.leafLoop leaf min max (kind == .greedy) next)
  | loop {body min max kind slot id next} (plain : kind ≠ .possessive) :
      MadeFrom (.repetition body min max kind) (.loop ⟨slot, id, min, max, kind == .greedy, next⟩)
  | loopTail {body min max kind owner} (plain : kind ≠ .possessive) :
      MadeFrom (.repetition body min max kind) (.loopTail owner)

end Node

def Graph.closed? (g : Graph) : Node → Option Nat
  | .groupEnd slot _ _ | .commit slot => some slot
  | .loopTail owner => (g.ownedLoop? owner).map (·.slot)
  | _ => none

structure Entry where
  id : Nat
  node : Node
  path : Path

structure Inventory (g : Graph) (part? : Path → Option Expr) (groups : List (Path × Nat))
    (a b : Nat) (owned closed : List Nat) (entries : List Entry) : Prop where
  grows : a ≤ b
  ids : entries.map (·.id) = List.range' a (b - a)
  nodes : ∀ x ∈ entries, g.nodes[x.id]? = some x.node
  parts : ∀ x ∈ entries, ∃ part, part? x.path = some part ∧ x.node.MadeFrom part
  refs : ∀ x ∈ entries, ∀ m ∈ x.node.refs, m < x.id
  bodies : ∀ x ∈ entries, ∀ l, x.node = .loop l → x.id < l.body ∧ l.body < g.size
  owners : ∀ x ∈ entries, ∀ owner, x.node = .loopTail owner → ∃ l, g.ownedLoop? owner = some l
  ends : ∀ x ∈ entries, ∀ n, x.node.closedBy? x.id = some n → ∃ m : NodeId, g.nodes[m]? = some n
  owned : (entries.filterMap (·.node.owned?)).Perm owned
  closed : (entries.filterMap (g.closed? ·.node)).Perm closed
  numbers : (entries.filterMap fun x => x.node.number?.map (x.path, ·)).Subperm groups

def Entry.under (pre : Path) (x : Entry) : Entry := { x with path := pre ++ x.path }

def groupsUnder (pre : Path) (groups : List (Path × Nat)) : List (Path × Nat) :=
  groups.map fun (path, k) => (pre ++ path, k)

namespace Inventory

variable {g : Graph} {part? : Path → Option Expr} {groups groups' : List (Path × Nat)}
  {a b c id : Nat} {owned owned' closed closed' : List Nat} {entries entries' : List Entry}

theorem nothing : Inventory g part? [] a a [] [] [] := by
  constructor <;> simp

theorem append (first : Inventory g part? groups a b owned closed entries)
    (second : Inventory g part? groups' b c owned' closed' entries') :
    Inventory g part? (groups ++ groups') a c (owned ++ owned') (closed ++ closed')
      (entries ++ entries') := by
  constructor
  case grows => exact Nat.le_trans first.grows second.grows
  case ids =>
    have := first.grows
    have := second.grows
    have split : c - a = b - a + (c - b) := by omega
    have middle : b = a + (b - a) := by omega
    rw [List.map_append, first.ids, second.ids, split, ← List.range'_append_1, ← middle]
  case nodes => exact List.forall_mem_append.mpr ⟨first.nodes, second.nodes⟩
  case parts => exact List.forall_mem_append.mpr ⟨first.parts, second.parts⟩
  case refs => exact List.forall_mem_append.mpr ⟨first.refs, second.refs⟩
  case bodies => exact List.forall_mem_append.mpr ⟨first.bodies, second.bodies⟩
  case owners => exact List.forall_mem_append.mpr ⟨first.owners, second.owners⟩
  case ends => exact List.forall_mem_append.mpr ⟨first.ends, second.ends⟩
  case owned =>
    rw [List.filterMap_append]
    exact first.owned.append second.owned
  case closed =>
    rw [List.filterMap_append]
    exact first.closed.append second.closed
  case numbers =>
    rw [List.filterMap_append]
    exact first.numbers.append second.numbers

theorem under (pre : Path)
    (inventory : Inventory g (fun path => part? (pre ++ path)) groups a b owned closed entries) :
    Inventory g part? (groupsUnder pre groups) a b owned closed (entries.map (·.under pre)) := by
  constructor
  case grows => exact inventory.grows
  case ids =>
    rw [List.map_map]
    exact inventory.ids
  case nodes => exact List.forall_mem_map.mpr inventory.nodes
  case parts => exact List.forall_mem_map.mpr inventory.parts
  case refs => exact List.forall_mem_map.mpr inventory.refs
  case bodies => exact List.forall_mem_map.mpr inventory.bodies
  case owners => exact List.forall_mem_map.mpr inventory.owners
  case ends => exact List.forall_mem_map.mpr inventory.ends
  case owned =>
    rw [List.filterMap_map]
    exact inventory.owned
  case closed =>
    rw [List.filterMap_map]
    exact inventory.closed
  case numbers =>
    have moved : (entries.map (·.under pre)).filterMap (fun x => x.node.number?.map (x.path, ·)) =
        groupsUnder pre (entries.filterMap fun x => x.node.number?.map (x.path, ·)) := by
      rw [List.filterMap_map, groupsUnder, List.map_filterMap]
      refine List.filterMap_congr fun x _ => ?_
      simp only [Function.comp, Entry.under, Option.map_map]
      rfl
    rw [moved]
    exact List.Subperm.map (fun x y same => by simpa [Prod.ext_iff] using same) inventory.numbers

theorem mono (inventory : Inventory g part? groups a b owned closed entries)
    (more : groups.Subperm groups') (sameOwned : owned.Perm owned')
    (sameClosed : closed.Perm closed') :
    Inventory g part? groups' a b owned' closed' entries := by
  have owned := inventory.owned.trans sameOwned
  have closed := inventory.closed.trans sameClosed
  have numbers := inventory.numbers.trans more
  exact { inventory with owned, closed, numbers }

theorem single {n : Node} {part : Expr} (here : g.nodes[id]? = some n) (path : Path)
    (found : part? path = some part) (made : n.MadeFrom part) (refs : ∀ m ∈ n.refs, m < id)
    (body : ∀ l, n = .loop l → id < l.body ∧ l.body < g.size)
    (owner : ∀ owner, n = .loopTail owner → ∃ l, g.ownedLoop? owner = some l)
    (ends : ∀ n', n.closedBy? id = some n' → ∃ m : NodeId, g.nodes[m]? = some n') :
    Inventory g part? (n.number?.map (path, ·)).toList id (id + 1) n.owned?.toList
      (g.closed? n).toList [⟨id, n, path⟩] := by
  constructor
  case grows => exact Nat.le_succ id
  case ids => simp
  case nodes => simpa using here
  case parts => simpa [found] using made
  case refs => simpa using refs
  case bodies => simpa using body
  case owners => simpa using owner
  case ends => simpa using ends
  case owned => cases h : n.owned? <;> simp [h]
  case closed => cases h : g.closed? n <;> simp [h]
  case numbers => cases h : n.number? <;> simp [h]

end Inventory

/-- What an atomic group or a lookahead puts back: the slots owned by other nodes made from parts in
it, and the capture groups in it. -/
def Entry.Framed (groups : List (Path × Nat)) (entries : List Entry) (x : Entry) : Prop :=
  ∀ slot inner, x.node.frame? = some (slot, inner) → ∀ k,
    (inner.slots.contains k = true ↔
      k ≠ slot ∧ ∃ y ∈ entries, y.node.owned? = some k ∧ x.path <+: y.path) ∧
    (inner.captures.contains k = true ↔ ∃ path, (path, k) ∈ groups ∧ x.path <+: path)

namespace Entry.Framed

variable {groups groups' : List (Path × Nat)} {entries entries' : List Entry} {x : Entry}

theorem plain (frameless : x.node.frame? = none) : x.Framed groups entries := by
  intro slot inner found
  simp [frameless] at found

theorem within (framed : x.Framed groups entries) (nodes : entries ⊆ entries')
    (others : ∀ y ∈ entries', x.path <+: y.path → y ∈ entries) (captures : groups ⊆ groups')
    (others' : ∀ y ∈ groups', x.path <+: y.1 → y ∈ groups) : x.Framed groups' entries' := by
  intro slot inner found k
  obtain ⟨slots, numbers⟩ := framed slot inner found k
  refine ⟨slots.trans ⟨?_, ?_⟩, numbers.trans ⟨?_, ?_⟩⟩
  · rintro ⟨other, y, member, owned, below⟩
    exact ⟨other, y, nodes member, owned, below⟩
  · rintro ⟨other, y, member, owned, below⟩
    exact ⟨other, y, others y member below, owned, below⟩
  · rintro ⟨path, member, below⟩
    exact ⟨path, captures member, below⟩
  · rintro ⟨path, member, below⟩
    exact ⟨path, others' _ member below, below⟩

theorem amid (framed : x.Framed groups entries) (inner : x.path ≠ []) (nodes : entries ⊆ entries')
    (others : ∀ y ∈ entries', y ∈ entries ∨ y.path = []) (captures : groups ⊆ groups')
    (others' : ∀ y ∈ groups', y ∈ groups ∨ y.1 = []) : x.Framed groups' entries' := by
  refine framed.within nodes (fun y member below => ?_) captures fun y member below => ?_
  · exact (others y member).resolve_right fun root =>
      inner (List.prefix_nil.mp (root ▸ below))
  · exact (others' y member).resolve_right fun root =>
      inner (List.prefix_nil.mp (root ▸ below))

theorem under (framed : x.Framed groups entries) (pre : Path) :
    (x.under pre).Framed (groupsUnder pre groups) (entries.map (·.under pre)) := by
  intro slot inner found k
  obtain ⟨slots, numbers⟩ := framed slot inner found k
  refine ⟨slots.trans ?_, numbers.trans ?_⟩
  · simp [Entry.under]
  · simp [Entry.under, groupsUnder]

end Entry.Framed

def Mark.slots (a b : Mark) : List Nat := List.range' a.slot (b.slot - a.slot)

theorem Mark.slots_append {a b c : Mark} (first : a.slot ≤ b.slot) (second : b.slot ≤ c.slot) :
    a.slots b ++ b.slots c = a.slots c := by
  have split : c.slot - a.slot = b.slot - a.slot + (c.slot - b.slot) := by omega
  have middle : b.slot = a.slot + (b.slot - a.slot) := by omega
  rw [slots, slots, slots, split, ← List.range'_append_1, ← middle]

theorem Mark.slots_cons {a b : Mark} (own : a.slot < b.slot) (n : Nat) :
    a.slots b = a.slot :: Mark.slots ⟨n, a.slot + 1⟩ b := by
  rw [slots, slots, ← List.range'_succ]
  congr 1
  dsimp only
  omega

def Stocked (g : Graph) (part? : Path → Option Expr) (groups : List (Path × Nat))
    (paths : List Path) (a b : Mark) : Prop :=
  ∃ entries : List Entry, entries.map (·.path) = paths ∧
    Inventory g part? groups a.node b.node (a.slots b) (a.slots b) entries ∧
    ∀ x ∈ entries, x.Framed groups entries

def Path.In (among : Nat → Prop) (path : Path) : Prop := ∃ i rest, path = i :: rest ∧ among i

theorem Path.In.imp {among wider : Nat → Prop} {path : Path} (here : Path.In among path)
    (weaker : ∀ i, among i → wider i) : Path.In wider path := by
  obtain ⟨i, rest, rfl, inside⟩ := here
  exact ⟨i, rest, rfl, weaker i inside⟩

theorem Path.In.apart {among : Nat → Prop} {path other : Path} (here : Path.In among path)
    (there : Path.In (¬ among ·) other) : ¬ path <+: other ∧ ¬ other <+: path := by
  obtain ⟨i, rest, rfl, left⟩ := here
  obtain ⟨j, rest', rfl, right⟩ := there
  constructor <;> intro below
  · exact right ((List.cons_prefix_cons.mp below).1 ▸ left)
  · exact right ((List.cons_prefix_cons.mp below).1 ▸ left)

namespace Stocked

variable {g : Graph} {part? : Path → Option Expr} {groups groups' all : List (Path × Nat)}
  {paths paths' : List Path} {a b c : Mark}

theorem append (among : Nat → Prop) (first : Stocked g part? groups paths a b)
    (second : Stocked g part? groups' paths' b c) (slots : a.slot ≤ b.slot ∧ b.slot ≤ c.slot)
    (here : ∀ path ∈ paths, Path.In among path)
    (there : ∀ path ∈ paths', Path.In (¬ among ·) path)
    (here' : ∀ x ∈ groups, Path.In among x.1) (there' : ∀ x ∈ groups', Path.In (¬ among ·) x.1)
    (both : (groups ++ groups').Perm all) : Stocked g part? all (paths ++ paths') a c := by
  obtain ⟨entries, rfl, inventory, framed⟩ := first
  obtain ⟨entries', rfl, inventory', framed'⟩ := second
  simp only [List.mem_map, forall_exists_index, and_imp, forall_apply_eq_imp_iff₂] at here there
  have same := Mark.slots_append slots.1 slots.2
  refine ⟨entries ++ entries', List.map_append, (inventory.append inventory').mono both.subperm
    (by rw [same]) (by rw [same]), List.forall_mem_append.mpr ⟨?_, ?_⟩⟩
  · intro x member
    refine (framed x member).within (List.subset_append_left _ _) ?_
      (fun z group => both.subset (List.mem_append_left _ group)) ?_
    · intro y among below
      refine (List.mem_append.mp among).resolve_right fun other => ?_
      exact ((here x member).apart (there y other)).1 below
    · intro y among below
      refine (List.mem_append.mp (both.mem_iff.mpr among)).resolve_right fun other => ?_
      exact ((here x member).apart (there' y other)).1 below
  · intro x member
    refine (framed' x member).within (List.subset_append_right _ _) ?_
      (fun z group => both.subset (List.mem_append_right _ group)) ?_
    · intro y among below
      refine (List.mem_append.mp among).resolve_left fun other => ?_
      exact ((here y other).apart (there x member)).2 below
    · intro y among below
      refine (List.mem_append.mp (both.mem_iff.mpr among)).resolve_left fun other => ?_
      exact ((here' y other).apart (there x member)).2 below

theorem length_paths (stocked : Stocked g part? groups paths a b) :
    paths.length = b.node - a.node := by
  obtain ⟨entries, rfl, inventory, _⟩ := stocked
  rw [List.length_map, ← List.length_map, inventory.ids, List.length_range']

theorem inside (stocked : Stocked g part? groups paths a b) {m : Nat} (low : a.node ≤ m)
    (high : m < b.node) : m < g.size := by
  obtain ⟨entries, rfl, inventory, _⟩ := stocked
  have member : m ∈ entries.map (·.id) := by
    rw [inventory.ids, List.mem_range'_1]
    omega
  obtain ⟨x, among, rfl⟩ := List.mem_map.mp member
  exact (Array.getElem?_eq_some_iff.mp (inventory.nodes x among)).1

theorem under (pre : Path)
    (stocked : Stocked g (fun path => part? (pre ++ path)) groups paths a b) :
    Stocked g part? (groupsUnder pre groups) (paths.map (pre ++ ·)) a b := by
  obtain ⟨entries, rfl, inventory, framed⟩ := stocked
  exact ⟨entries.map (·.under pre), by simp [Entry.under], inventory.under pre,
    List.forall_mem_map.mpr fun x member => (framed x member).under pre⟩

end Stocked

end BacktrackRegex
