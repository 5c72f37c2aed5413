import BacktrackRegex.Proofs.Agreement
import BacktrackRegex.Proofs.Shapes

/-! Two graphs side by side. Where both hold the same stretch of nodes, they come to the same from
its entry on if they do so from the node after it. The bounds of a loop are no part of this if its
body never leaves its place: then a second iteration never begins. -/
namespace BacktrackRegex

def Node.leads : Node → List NodeId
  | sequence children _ => children.take 1
  | group _ _ branches _ | atomic _ branches _ _ => branches
  | loop l => [l.body]
  | leafLoop leaf _ _ _ _ => [leaf]
  | _ => []

theorem Expr.leads_of_leafNode? {e : Expr} {next : NodeId} {n : Node}
    (single : e.leafNode? next = some n) : n.leads = [] := by
  revert single
  fun_cases leafNode? e next <;> intro single <;> cases single <;> rfl

namespace Graph

variable {g g' : Graph} {id : NodeId}

def SameLead (g g' : Graph) (id : NodeId) : Prop :=
  ∀ deep, Node.leadByte? g'.nodes deep id = Node.leadByte? g.nodes deep id

theorem SameLead.of_node {n : Node} (here : g.nodes[id]? = some n) (here' : g'.nodes[id]? = some n)
    (inner : ∀ m ∈ n.leads, g.SameLead g' m) : g.SameLead g' id := by
  rintro (_ | deep)
  · rfl
  simp only [Node.leadByte?, here, here']
  cases n with
  | literal text ignoreCase next => cases ignoreCase <;> rfl
  | sequence children next =>
    cases children with
    | nil => rfl
    | cons first rest => exact inner first (by simp [Node.leads]) deep
  | group slot capture branches next | atomic slot branches frame next =>
    match branches with
    | [] | _ :: _ :: _ => rfl
    | [branch] => exact inner branch (by simp [Node.leads]) deep
  | loop l => dsimp only; rw [inner l.body (by simp [Node.leads]) deep]
  | leafLoop leaf min max greedy next => dsimp only; rw [inner leaf (by simp [Node.leads]) deep]
  | _ => rfl

theorem SameLead.of_loop {l l' : Loop} (here : g.nodes[id]? = some (.loop l))
    (here' : g'.nodes[id]? = some (.loop l')) (but : l.SameBut l')
    (required : 0 < l'.min ↔ 0 < l.min)
    (inner : g.SameLead g' l.body) : g.SameLead g' id := by
  rintro (_ | deep)
  · rfl
  simp only [Node.leadByte?, here, here', but.body, required, inner deep]

def Agree (g g' : Graph) (t : Text) (Φ Ψ : Nat → Registers → Prop) (n id : Nat) : Prop :=
  ∀ depth ≤ n, ∀ p r, Φ p r → ConcurAt Ψ (g.attemptWithin t depth) (g'.attemptWithin t depth) id p r

variable {t : Text} {Φ Ψ : Nat → Registers → Prop} {n m : Nat}

theorem Agree.mono (agree : g.Agree g' t Φ Ψ n id) (fewer : m ≤ n) : g.Agree g' t Φ Ψ m id := by
  intro depth le
  exact agree depth (Nat.le_trans le fewer)

theorem Agree.of_rule (rule : ∀ depth < n, ∀ p r, Φ p r → ConcurAt Ψ
    (g.visitNode t (g.attemptWithin t depth)) (g'.visitNode t (g'.attemptWithin t depth)) id p r) :
    g.Agree g' t Φ Ψ n id := by
  intro depth le p r holds s same
  cases depth with
  | zero => exact ⟨rfl, fun _ _ found => by cases found⟩
  | succ depth => exact .opened fun s' kept => rule depth le p r holds s' (kept.trans same)

theorem Agree.final {end' : Node} (final : end' = .succeed ∨ ∃ slot, end' = .commit slot)
    (here : g.nodes[id]? = some end') (here' : g'.nodes[id]? = some end')
    (ends : ∀ p r, Φ p r → Ψ p r) : g.Agree g' t Φ Ψ n id := by
  refine .of_rule fun depth _ p r holds s same => ?_
  obtain rfl | ⟨slot, rfl⟩ := final <;>
    simp only [visitNode, node_success.mpr here, node_success.mpr here', bind, Except.bind] <;>
    exact .success (same ▸ ends p r holds)

theorem leafEnd_eq {n : Node} {s : MatchState} (here : g.nodes[id]? = some n)
    (here' : g'.nodes[id]? = some n) : g'.leafEnd t s id = g.leafEnd t s id := by
  funext p
  simp only [leafEnd, node_success.mpr here, node_success.mpr here', bind, Except.bind]

end Graph

def Lasting (Φ : Nat → Registers → Prop) (free : Prop) (a b : Mark) : Prop :=
  ∀ {p q r r'}, Φ p r → (q = p ∨ free) →
    (∀ k, k < a.slot ∨ b.slot ≤ k → r'.consumed[k]? = r.consumed[k]?) → Φ q r'

namespace Lasting

variable {Φ : Nat → Registers → Prop} {free : Prop} {a b c d : Mark} {p q : Nat} {r r' : Registers}

theorem always : Lasting (fun _ _ => True) True a b := by
  intro p q r r' _ _ _
  trivial

theorem part (lasting : Lasting Φ free a b) (low : a.slot ≤ c.slot) (high : d.slot ≤ b.slot) :
    Lasting Φ free c d := by
  intro p q r r' holds moved same
  refine lasting holds moved fun k outside => same k ?_
  omega

theorem moved (lasting : Lasting Φ free a b) (holds : Φ p r) (moved : q = p ∨ free) : Φ q r := by
  exact lasting holds moved fun _ _ => rfl

theorem begun (lasting : Lasting Φ free a b) (own : a.slot < b.slot) (holds : Φ p r)
    (begun : Option Nat) : Φ p (r.putConsumed a.slot begun) := by
  refine lasting holds (.inl rfl) fun k outside => ?_
  have other : a.slot ≠ k := by omega
  exact Array.getElem?_setIfInBounds_ne other

theorem committed (lasting : Lasting Φ free a b) (own : a.slot < b.slot) (holds : Φ p r)
    (moved : q = p ∨ free) {captures : Interval} {begun : Option Nat}
    (same : (r.putConsumed a.slot begun).AgreeOutside ⟨captures, ⟨a.slot + 1, b.slot⟩⟩ r') :
    Φ q r' := by
  refine lasting (lasting.begun own holds begun) moved fun k outside => same.consumed k ?_
  rw [← Bool.not_eq_true, Interval.contains_iff]
  dsimp only
  omega

end Lasting

/-- Two graphs hold a stretch from `a` to `b` that is entered at `id` and goes on at `next`; they
come to the same from `id` on if they do from `next` on. If the expression is `still`, the condition
on the way need not last elsewhere in the text. -/
structure Parallel (g g' : Graph) (still : Prop) (a b : Mark) (next id : Nat) : Prop where
  lead : g.SameLead g' next → g.SameLead g' id
  agree : ∀ {t Φ Ψ free n}, Lasting Φ free a b → (still ∨ free) → g.Agree g' t Φ Ψ n next →
    g.Agree g' t Φ Ψ n id

namespace Parallel

variable {g g' : Graph} {still : Prop} {a b c d : Mark} {next id : Nat}
variable {t : Text} {Φ Ψ : Nat → Registers → Prop} {free : Prop} {n : Nat}

theorem nothing : Parallel g g' still a b next next := by
  constructor
  case lead =>
    intro lead
    exact lead
  case agree =>
    intro t Φ Ψ free n _ _ after
    exact after

theorem widen {part : Prop} (parallel : Parallel g g' part c d next id) (low : a.slot ≤ c.slot)
    (high : d.slot ≤ b.slot) (stays : still → part) : Parallel g g' still a b next id := by
  constructor
  case lead => exact parallel.lead
  case agree =>
    intro t Φ Ψ free n lasting stillness after
    exact parallel.agree (lasting.part low high) (stillness.imp_left stays) after

theorem trans {entry : Nat} (later : Parallel g g' still a b next entry)
    (first : Parallel g g' still a b entry id) : Parallel g g' still a b next id := by
  constructor
  case lead =>
    intro after
    exact first.lead (later.lead after)
  case agree =>
    intro t Φ Ψ free n lasting stillness after
    exact first.agree lasting stillness (later.agree lasting stillness after)

theorem leaf {e : Expr} {n : Node} (single : e.leafNode? next = some n)
    (here : g.nodes[id]? = some n) (here' : g'.nodes[id]? = some n)
    (stays : still → ∀ {t s p q}, g.leafEnd t s id p = .ok (some q) → q = p) :
    Parallel g g' still a b next id := by
  constructor
  case lead =>
    intro _
    exact .of_node here here' (by simp [Expr.leads_of_leafNode? single])
  case agree =>
    intro t Φ Ψ free n lasting stillness after
    refine .of_rule fun depth below p r holds s same => ?_
    rw [Graph.visitNode_leaf _ single here, Graph.visitNode_leaf _ single here',
      Graph.leafEnd_eq here here']
    refine .bind fun found ended => ?_
    cases found with
    | none => exact .failure s
    | some q =>
      have moved : q = p ∨ free := stillness.imp_left fun still => stays still ended
      exact after depth (Nat.le_of_lt below) q r (lasting.moved holds moved) s same

theorem sequence {children : List NodeId} {entry : Nat} (row : Parallel g g' still a b next entry)
    (head : children.head?.getD next = entry) (several : 1 < children.length)
    (here : g.nodes[id]? = some (.sequence children next))
    (here' : g'.nodes[id]? = some (.sequence children next)) :
    Parallel g g' still a b next id := by
  constructor
  case lead =>
    intro after
    refine .of_node here here' fun m member => ?_
    match children, several with
    | first :: second :: rest, _ =>
      obtain rfl : m = first := by simpa [Node.leads] using member
      obtain rfl : m = entry := head
      exact row.lead after
  case agree =>
    intro t Φ Ψ free n lasting stillness after
    refine .of_rule fun depth below p r holds s same => ?_
    simp only [Graph.visitNode, Graph.node_success.mpr here, Graph.node_success.mpr here', bind,
      Except.bind, head]
    exact row.agree lasting stillness after depth (Nat.le_of_lt below) p r holds s same

section Groups

variable {kind : GroupKind} {cap : Nat} {ids : List NodeId} {captures : Interval} {inside : Prop}

theorem group_lead (tail : g.nodes[a.node]? = some (kind.tail a.slot cap next))
    (tail' : g'.nodes[a.node]? = some (kind.tail a.slot cap next)) {inner : Frame}
    (head : g.nodes[id]? = some (kind.head a.slot cap ids inner next))
    (head' : g'.nodes[id]? = some (kind.head a.slot cap ids inner next))
    (branches : ∀ branch ∈ ids, Parallel g g' inside ⟨a.node + 1, a.slot + 1⟩ b a.node branch) :
    g.SameLead g' id := by
  have ended : g.SameLead g' a.node := by
    refine .of_node tail tail' fun m member => ?_
    cases kind <;> cases member
  refine .of_node head head' fun m member => (branches m ?_).lead ended
  cases kind <;> first | exact member | cases member

theorem plain_agree (enclosing : g.Enclosing) (own : a.slot < b.slot) {capture : Option Nat}
    (tail : g.nodes[a.node]? = some (.groupEnd a.slot capture next))
    (tail' : g'.nodes[a.node]? = some (.groupEnd a.slot capture next))
    (head : g.nodes[id]? = some (.group a.slot capture ids next))
    (head' : g'.nodes[id]? = some (.group a.slot capture ids next))
    (branches : ∀ branch ∈ ids, Parallel g g' inside ⟨a.node + 1, a.slot + 1⟩ b a.node branch)
    (stays : still → inside) (lasting : Lasting Φ free a b) (stillness : still ∨ free)
    (after : g.Agree g' t Φ Ψ n next) : g.Agree g' t Φ Ψ n id := by
  have ended : g.Agree g' t Φ Ψ n a.node := by
    refine .of_rule fun depth below p r holds s same => ?_
    simp only [Graph.visitNode, Graph.node_success.mpr tail, Graph.node_success.mpr tail', bind,
      Except.bind]
    have further (r' : Registers) (kept : r'.consumed = r.consumed) :=
      after depth (Nat.le_of_lt below) p r' (lasting holds (.inl rfl) fun _ _ => by rw [kept])
    exact groupEnd_concur (further r rfl) (fun k start _ => further _ rfl) same
  refine .of_rule fun depth below p r holds s same => ?_
  simp only [Graph.visitNode, Graph.node_success.mpr head, Graph.node_success.mpr head', bind,
    Except.bind]
  refine group_concur (attemptWithin_tidy enclosing depth) (fun branch member => ?_) same
  exact (branches branch member).agree (lasting.part (Nat.le_succ _) (Nat.le_refl _))
    (stillness.imp_left stays) ended depth (Nat.le_of_lt below) p _
    (lasting.begun own holds (some p))

theorem atomic_agree (enclosing : g.Enclosing) (own : a.slot < b.slot)
    (tail : g.nodes[a.node]? = some (.commit a.slot))
    (tail' : g'.nodes[a.node]? = some (.commit a.slot))
    (head : g.nodes[id]? = some (.atomic a.slot ids ⟨captures, ⟨a.slot + 1, b.slot⟩⟩ next))
    (head' : g'.nodes[id]? = some (.atomic a.slot ids ⟨captures, ⟨a.slot + 1, b.slot⟩⟩ next))
    (branches : ∀ branch ∈ ids, Parallel g g' inside ⟨a.node + 1, a.slot + 1⟩ b a.node branch)
    (stays : still → inside) (lasting : Lasting Φ free a b) (stillness : still ∨ free)
    (after : g.Agree g' t Φ Ψ n next) : g.Agree g' t Φ Ψ n id := by
  refine .of_rule fun depth below p r holds s same => ?_
  simp only [Graph.visitNode, Graph.node_success.mpr head, Graph.node_success.mpr head', bind,
    Except.bind]
  have here : Lasting (fun q _ => q = p ∨ free) free ⟨a.node + 1, a.slot + 1⟩ b := by
    rintro q q' _ _ moved (rfl | free) _
    · exact moved
    · exact .inr free
  refine atomic_concur (Θ := fun q _ => q = p ∨ free) (attemptWithin_tidy enclosing depth)
    (enclosing head rfl) (fun branch member => ?_) (fun q r' moved same => ?_) same
  · exact (branches branch member).agree here (stillness.imp_left stays)
      (.final (.inr ⟨_, rfl⟩) tail tail' fun _ _ moved => moved) depth (Nat.le_refl _) p _
      (.inl rfl)
  · exact after depth (Nat.le_of_lt below) q r' (lasting.committed own holds moved same)

theorem lookAhead_agree (enclosing : g.Enclosing) (own : a.slot < b.slot) {negative : Bool}
    (tail : g.nodes[a.node]? = some (.commit a.slot))
    (tail' : g'.nodes[a.node]? = some (.commit a.slot))
    (head : g.nodes[id]? =
      some (.lookAhead a.slot negative ids ⟨captures, ⟨a.slot + 1, b.slot⟩⟩ next))
    (head' : g'.nodes[id]? =
      some (.lookAhead a.slot negative ids ⟨captures, ⟨a.slot + 1, b.slot⟩⟩ next))
    (branches : ∀ branch ∈ ids, Parallel g g' inside ⟨a.node + 1, a.slot + 1⟩ b a.node branch)
    (lasting : Lasting Φ free a b) (after : g.Agree g' t Φ Ψ n next) : g.Agree g' t Φ Ψ n id := by
  refine .of_rule fun depth below p r holds s same => ?_
  simp only [Graph.visitNode, Graph.node_success.mpr head, Graph.node_success.mpr head', bind,
    Except.bind]
  refine lookAhead_concur (Θ := fun _ _ => True) (attemptWithin_tidy enclosing depth)
    (enclosing head rfl) (fun branch member => ?_) (fun r' _ same => ?_) same
  · exact (branches branch member).agree Lasting.always (.inr trivial)
      (.final (.inr ⟨_, rfl⟩) tail tail' fun _ _ _ => trivial) depth (Nat.le_refl _) p _ trivial
  · exact after depth (Nat.le_of_lt below) p r' (lasting.committed own holds (.inl rfl) same)

theorem group (enclosing : g.Enclosing) (own : a.slot < b.slot)
    (tail : g.nodes[a.node]? = some (kind.tail a.slot cap next))
    (tail' : g'.nodes[a.node]? = some (kind.tail a.slot cap next))
    (head : g.nodes[id]? =
      some (kind.head a.slot cap ids ⟨captures, ⟨a.slot + 1, b.slot⟩⟩ next))
    (head' : g'.nodes[id]? =
      some (kind.head a.slot cap ids ⟨captures, ⟨a.slot + 1, b.slot⟩⟩ next))
    (branches : ∀ branch ∈ ids, Parallel g g' inside ⟨a.node + 1, a.slot + 1⟩ b a.node branch)
    (stays : still → kind = .lookAhead ∨ kind = .negativeLookAhead ∨ inside) :
    Parallel g g' still a b next id := by
  constructor
  case lead =>
    intro _
    exact group_lead tail tail' head head' branches
  case agree =>
    intro t Φ Ψ free n lasting stillness after
    cases kind with
    | capture | nonCapture =>
      exact plain_agree enclosing own tail tail' head head' branches (by simpa using stays)
        lasting stillness after
    | atomic =>
      exact atomic_agree enclosing own tail tail' head head' branches (by simpa using stays) lasting
        stillness after
    | lookAhead | negativeLookAhead =>
      exact lookAhead_agree enclosing own tail tail' head head' branches lasting after

end Groups

section Loops

variable {entry min min' : Nat} {max max' : Option Nat} {greedy : Bool}

theorem leafLoop (enclosing : g.Enclosing) (moving : ¬still) {body : Expr} {end' leaf : Nat}
    {n : Node} (single : body.leafNode? end' = some n) (below : g.nodes[leaf]? = some n)
    (below' : g'.nodes[leaf]? = some n)
    (here : g.nodes[id]? = some (.leafLoop leaf min max greedy next))
    (here' : g'.nodes[id]? = some (.leafLoop leaf min max greedy next)) :
    Parallel g g' still a b next id := by
  constructor
  case lead =>
    intro _
    refine .of_node here here' fun m member => ?_
    obtain rfl : m = leaf := by simpa [Node.leads] using member
    exact .of_node below below' (by simp [Expr.leads_of_leafNode? single])
  case agree =>
    intro t Φ Ψ free n lasting stillness after
    refine .of_rule fun depth less p r holds s same => ?_
    simp only [Graph.visitNode, Graph.node_success.mpr here, Graph.node_success.mpr here', bind,
      Except.bind, Graph.leafEnd_eq below below']
    have further (q : Nat) := after depth (Nat.le_of_lt less) q r
      (lasting.moved holds (.inr (stillness.resolve_left moving)))
    split
    · exact leafLoopGreedy_concur (attemptWithin_tidy enclosing depth) further same
    · exact leafLoopReluctant_concur (attemptWithin_tidy enclosing depth) further same

theorem loopTail_agree (enclosing : g.Enclosing) (own : a.slot < b.slot) {l : Loop}
    (owned : l.slot = a.slot) (owner : g.nodes[a.node]? = some (.loop l))
    (owner' : g'.nodes[a.node]? = some (.loop l))
    (tail : g.nodes[a.node + 1]? = some (.loopTail a.node))
    (tail' : g'.nodes[a.node + 1]? = some (.loopTail a.node))
    (inside : Parallel g g' still ⟨a.node + 2, a.slot + 1⟩ b (a.node + 1) l.body)
    (lasting : Lasting Φ free a b) (stillness : still ∨ free)
    (after : g.Agree g' t Φ Ψ n l.next) : g.Agree g' t Φ Ψ n (a.node + 1) := by
  -- On how many visits may be open, for the tail is visited again from the body.
  induction n using Nat.strongRecOn with
  | ind n ih =>
    refine .of_rule fun depth below p r holds s same => ?_
    simp only [Graph.visitNode, Graph.node_success.mpr tail, Graph.node_success.mpr tail',
      Graph.loopAt_of_node owner, Graph.loopAt_of_node owner', bind, Except.bind]
    have body : g.Agree g' t Φ Ψ depth l.body :=
      inside.agree (lasting.part (Nat.le_succ _) (Nat.le_refl _)) stillness
        (ih depth below (after.mono (Nat.le_of_lt below)))
    have counted (k : Nat) : Φ p (r.putCount l.slot k) :=
      lasting holds (.inl rfl) fun _ _ => rfl
    have begun (k : Nat) : Φ p ((r.putCount l.slot k).putConsumed l.slot (some p)) :=
      owned ▸ lasting.begun own (counted k) (some p)
    refine loopTail_concur (attemptWithin_tidy enclosing depth) (fun k _ => ?_) ?_ (fun k => ?_)
      same
    · exact body depth (Nat.le_refl _) p _ (begun k)
    · exact after depth (Nat.le_of_lt below) p r holds
    · exact after depth (Nat.le_of_lt below) p _ (counted k)

/-- A loop whose body stays where it is gets to its tail where its iteration began, and goes
straight on, whatever the bounds. -/
theorem loopTail_still_agree {l l' : Loop} (but : l.SameBut l')
    (owner : g.nodes[a.node]? = some (.loop l)) (owner' : g'.nodes[a.node]? = some (.loop l'))
    (tail : g.nodes[a.node + 1]? = some (.loopTail a.node))
    (tail' : g'.nodes[a.node + 1]? = some (.loopTail a.node)) (after : g.Agree g' t Φ Ψ n l.next) :
    g.Agree g' t (fun p r => Φ p r ∧ r.consumed[l.slot]? = some (some p)) Ψ n (a.node + 1) := by
  refine .of_rule fun depth below p r ⟨holds, began⟩ s same => ?_
  simp only [Graph.visitNode, Graph.node_success.mpr tail, Graph.node_success.mpr tail',
    Graph.loopAt_of_node owner, Graph.loopAt_of_node owner', bind, Except.bind]
  exact loopTail_still_concur but began (after depth (Nat.le_of_lt below) p r holds) same

theorem loop (enclosing : g.Enclosing) (own : a.slot < b.slot)
    (owner : g.nodes[a.node]? = some (.loop ⟨a.slot, entry, min, max, greedy, next⟩))
    (owner' : g'.nodes[a.node]? = some (.loop ⟨a.slot, entry, min', max', greedy, next⟩))
    (tail : g.nodes[a.node + 1]? = some (.loopTail a.node))
    (tail' : g'.nodes[a.node + 1]? = some (.loopTail a.node))
    (inside : Parallel g g' still ⟨a.node + 2, a.slot + 1⟩ b (a.node + 1) entry)
    (required : 0 < min' ↔ 0 < min) (room : belowMax 0 max' = belowMax 0 max)
    (bounds : still ∨ (min' = min ∧ max' = max)) : Parallel g g' still a b next a.node := by
  have but : Loop.SameBut ⟨a.slot, entry, min, max, greedy, next⟩
      ⟨a.slot, entry, min', max', greedy, next⟩ := ⟨rfl, rfl, rfl, rfl⟩
  have ended : g.SameLead g' (a.node + 1) := .of_node tail tail' fun m member => by cases member
  refine ⟨fun _ => .of_loop owner owner' but required (inside.lead ended), ?_⟩
  intro t Φ Ψ free n lasting stillness after
  have body (depth : Nat) (below : depth < n) (p : Nat) (r : Registers) (holds : Φ p r)
      (bound : a.slot < r.consumed.size) : ConcurAt Ψ (g.attemptWithin t depth)
        (g'.attemptWithin t depth) entry p (r.putConsumed a.slot (some p)) := by
    have begun := lasting.begun own holds (some p)
    obtain still | ⟨rfl, rfl⟩ := bounds
    · have here : Lasting (fun q r => Φ q r ∧ r.consumed[a.slot]? = some (some q)) False
          ⟨a.node + 2, a.slot + 1⟩ b := by
        rintro q q' r r' ⟨holds, began⟩ (rfl | no) same
        · exact ⟨lasting holds (.inl rfl) fun k outside => same k (by dsimp only; omega),
            (same a.slot (.inl (Nat.lt_succ_self _))).trans began⟩
        · exact no.elim
      exact inside.agree here (.inl still) (loopTail_still_agree but owner owner' tail tail' after)
        depth (Nat.le_of_lt below) p _ ⟨begun, by simp [Registers.putConsumed, bound]⟩
    · exact inside.agree (lasting.part (Nat.le_succ _) (Nat.le_refl _)) stillness
        (loopTail_agree enclosing own rfl owner owner' tail tail' inside lasting stillness after)
        depth (Nat.le_of_lt below) p _ begun
  refine .of_rule fun depth below p r holds s same => ?_
  simp only [Graph.visitNode, Graph.node_success.mpr owner, Graph.node_success.mpr owner', bind,
    Except.bind]
  have reset : Φ p ((r.putCount a.slot 0).putConsumed a.slot none) :=
    lasting.begun own (r := r.putCount a.slot 0) (lasting holds (.inl rfl) fun _ _ => rfl) none
  exact loop_concur (attemptWithin_tidy enclosing depth) but ⟨by dsimp only; omega, room⟩
    (body depth below p _ reset) (after depth (Nat.le_of_lt below) p _ reset) same

end Loops

end Parallel

end BacktrackRegex
