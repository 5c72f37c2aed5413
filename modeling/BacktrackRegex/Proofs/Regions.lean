import BacktrackRegex.Proofs.Registers

/-! Regions of a graph that matching does not leave, with the registers that are written inside. The
branches of an atomic group or a lookahead lie in such a region, for its commit leads nowhere. -/
namespace BacktrackRegex

namespace Graph

def ownedLoop? (g : Graph) (id : NodeId) : Option Loop :=
  match g.nodes[id]? with
  | some (.loop l) => some l
  | _ => none

def links (g : Graph) : Node → List NodeId
  | .succeed | .commit _ => []
  | .literal _ _ next | .charClass _ next | .anchor _ next | .backReference _ _ next
  | .groupEnd _ _ next | .leafLoop _ _ _ _ next => [next]
  | .sequence children next => [children.head?.getD next]
  | .group _ _ branches _ => branches
  | .loop l => [l.body, l.next]
  | .loopTail owner => (g.ownedLoop? owner).elim [] fun l => [l.body, l.next]
  | .atomic _ branches _ next | .lookAhead _ _ branches _ next => next :: branches

def slot? (g : Graph) : Node → Option Nat
  | .group slot _ _ _ | .atomic slot _ _ _ | .lookAhead slot _ _ _ _ => some slot
  | .loop l => some l.slot
  | .loopTail owner => (g.ownedLoop? owner).map (·.slot)
  | _ => none

end Graph

def Node.capture? : Node → Option Nat
  | groupEnd _ capture _ => capture
  | _ => none

def Node.enclosed? : Node → Option (List NodeId × Frame)
  | atomic _ branches inner _ | lookAhead _ _ branches inner _ => some (branches, inner)
  | _ => none

namespace Graph

structure Closed (g : Graph) (inside : NodeId → Prop) (f : Frame) : Prop where
  links : ∀ {id n m}, inside id → g.nodes[id]? = some n → m ∈ g.links n → inside m
  slots : ∀ {id n slot}, inside id → g.nodes[id]? = some n → g.slot? n = some slot →
    f.slots.contains slot = true
  captures : ∀ {id n k}, inside id → g.nodes[id]? = some n → n.capture? = some k →
    f.captures.contains k = true

def Confined (g : Graph) (id : NodeId) (f : Frame) : Prop := ∃ inside, g.Closed inside f ∧ inside id

variable {g : Graph} {id : NodeId} {n : Node} {f : Frame}

theorem Confined.link {m : NodeId} (confined : g.Confined id f) (node : g.nodes[id]? = some n)
    (member : m ∈ g.links n) : g.Confined m f := by
  obtain ⟨inside, closed, here⟩ := confined
  exact ⟨inside, closed, closed.links here node member⟩

theorem Confined.slot {slot : Nat} (confined : g.Confined id f) (node : g.nodes[id]? = some n)
    (written : g.slot? n = some slot) : f.slots.contains slot = true := by
  obtain ⟨inside, closed, here⟩ := confined
  exact closed.slots here node written

theorem Confined.capture {k : Nat} (confined : g.Confined id f) (node : g.nodes[id]? = some n)
    (written : n.capture? = some k) : f.captures.contains k = true := by
  obtain ⟨inside, closed, here⟩ := confined
  exact closed.captures here node written

/-- Atomic groups and lookaheads enclose, with their inner frame, all that their branches write. -/
def Enclosing (g : Graph) : Prop :=
  ∀ {id : NodeId} {n : Node} {branches inner}, g.nodes[id]? = some n →
    n.enclosed? = some (branches, inner) →
      ∀ b ∈ branches, g.Confined b inner

theorem node_success : g.node id = .ok n ↔ g.nodes[id]? = some n := by
  unfold node
  cases g.nodes[id]? <;> simp

theorem node_fault {e : Fault} (failed : g.node id = .error e) : e = .node := by
  unfold node at failed
  cases h : g.nodes[id]? with
  | none => rw [h] at failed; cases failed; rfl
  | some n => rw [h] at failed; cases failed

theorem ownedLoop_iff {l : Loop} : g.ownedLoop? id = some l ↔ g.nodes[id]? = some (.loop l) := by
  unfold ownedLoop?
  split
  · next node => simp [node]
  · next other => simpa using fun node => other l node

theorem loopAt_of_node {l : Loop} (node : g.nodes[id]? = some (.loop l)) :
    g.loopAt? id = .ok (some l) := by
  simp only [loopAt?, node_success.mpr node, bind, Except.bind]
  rfl

theorem loopAt_success {l : Loop} (ok : g.loopAt? id = .ok (some l)) :
    g.ownedLoop? id = some l := by
  obtain ⟨n, found, rest⟩ := bind_success ok
  cases n <;> cases rest
  exact ownedLoop_iff.mpr (node_success.mp found)

end Graph

end BacktrackRegex
