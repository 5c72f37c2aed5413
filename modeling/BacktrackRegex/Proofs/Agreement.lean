import BacktrackRegex.Proofs.Pairs
import BacktrackRegex.Proofs.Rollback

/-! Two ways to visit that come to the same. They need to agree only where a rule goes on to, with
the registers that it has there, since failures put the registers back. Then the rule comes to the
same by either. -/
namespace BacktrackRegex

/-- Attempts that come to the same and, if they succeed, end where `Ψ` holds of the registers. -/
structure Concur (Ψ : Nat → Registers → Prop) (x x' : Attempted) : Prop where
  same : x' = x
  ends : ∀ q s, x = .ok (some q, s) → Ψ q s.regs

def ConcurAt (Ψ : Nat → Registers → Prop) (visit visit' : Visit) (id p : Nat) (r : Registers) :
    Prop :=
  ∀ s : MatchState, s.regs = r → Concur Ψ (visit id p s) (visit' id p s)

namespace Concur

variable {Ψ : Nat → Registers → Prop} {x x' : Attempted}

theorem failure (s : MatchState) : Concur Ψ (.ok (none, s)) (.ok (none, s)) := by
  refine ⟨rfl, fun q u found => ?_⟩
  cases found

theorem success {q : Nat} {s : MatchState} (holds : Ψ q s.regs) :
    Concur Ψ (.ok (some q, s)) (.ok (some q, s)) := by
  refine ⟨rfl, fun q' u found => ?_⟩
  cases found
  exact holds

theorem bind {m : Except Fault α} {f f' : α → Attempted}
    (rest : ∀ a, m = .ok a → Concur Ψ (f a) (f' a)) : Concur Ψ (m >>= f) (m >>= f') := by
  cases m with
  | error e => exact ⟨rfl, fun _ _ found => by cases found⟩
  | ok a => exact rest a rfl

theorem andThen {Θ : Nat → Registers → Prop} {f f' : Option Nat × MatchState → Attempted}
    (first : Concur Θ x x')
    (failed : ∀ s, x = .ok (none, s) → Concur Ψ (f (none, s)) (f' (none, s)))
    (found : ∀ q s, x = .ok (some q, s) → Θ q s.regs → Concur Ψ (f (some q, s)) (f' (some q, s))) :
    Concur Ψ (x >>= f) (x' >>= f') := by
  rw [first.same]
  refine bind fun ⟨stop, s⟩ answer => ?_
  cases stop with
  | none => exact failed s answer
  | some q => exact found q s answer (first.ends q s answer)

theorem orElse {other other' : MatchState → Attempted} (first : Concur Ψ x x')
    (rest : ∀ s, x = .ok (none, s) → Concur Ψ (other s) (other' s)) :
    Concur Ψ (x.orElse other) (x'.orElse other') := by
  apply first.andThen rest
  intro q s _ holds
  exact success holds

theorem orUndo (first : Concur Ψ x x') (undo : MatchState → Except Fault MatchState) :
    Concur Ψ (x.orUndo undo) (x'.orUndo undo) := by
  apply first.andThen
  · intro s _
    exact bind fun s' _ => failure s'
  · intro q s _ holds
    exact success holds

theorem proceed {k k' : MatchState → Attempted} {s : MatchState}
    (rest : ∀ s' : MatchState, s'.regs = s.regs → Concur Ψ (k s') (k' s')) :
    Concur Ψ
      (match s.proceed with
        | (false, s) => return (none, s)
        | (true, s) => k s)
      (match s.proceed with
        | (false, s) => return (none, s)
        | (true, s) => k' s) := by
  split
  · exact failure _
  · next polled => exact rest _ (MatchState.proceed_budget polled).1

theorem guarded {c : Prop} [Decidable c] {k k' : MatchState → Attempted} {s : MatchState}
    (rest : c → Concur Ψ (k s) (k' s)) :
    Concur Ψ (if c then k s else return (none, s)) (if c then k' s else return (none, s)) := by
  split
  · next holds => exact rest holds
  · exact failure s

theorem opened {rule rule' : MatchState → Attempted} {s : MatchState}
    (same : ∀ s' : MatchState, s'.regs = s.regs → Concur Ψ (rule s') (rule' s')) :
    Concur Ψ (Attempt.opened rule s) (Attempt.opened rule' s) := by
  unfold Attempt.opened
  split
  · exact failure _
  · next s' entered =>
    exact (same s' (MatchState.enter_budget entered).1).andThen (fun s _ => failure _)
      fun q s _ ends => success ends

end Concur

section Rules

variable {g : Graph} {t : Text} {visit visit' : Visit} {polls : Nat}
variable {Ψ : Nat → Registers → Prop}
variable {p : Nat} {r : Registers} {s : MatchState}

theorem firstSuccess_concur (tidies : Tidies g t polls visit) {choices : List (NodeId × Nat)}
    (each : ∀ c ∈ choices, ConcurAt Ψ visit visit' c.1 c.2 r) (same : s.regs = r) :
    Concur Ψ (firstSuccess visit choices s) (firstSuccess visit' choices s) := by
  induction choices generalizing s with
  | nil => exact .failure s
  | cons choice rest ih =>
    unfold firstSuccess
    refine .proceed fun s₁ polled => ?_
    have first := each choice List.mem_cons_self s₁ (polled.trans same)
    refine first.orElse fun s₂ failed => ih (fun c member => each c (by simp [member])) ?_
    rw [(tidies failed).restored rfl, polled, same]

theorem firstBranch_concur (tidies : Tidies g t polls visit) {branches : List NodeId}
    (each : ∀ b ∈ branches, ConcurAt Ψ visit visit' b p r) (same : s.regs = r) :
    Concur Ψ (firstBranch visit branches p s) (firstBranch visit' branches p s) := by
  apply firstSuccess_concur tidies _ same
  simpa using each

theorem group_concur (tidies : Tidies g t polls visit) {slot : Nat} {branches : List NodeId}
    (each : ∀ b ∈ branches, ConcurAt Ψ visit visit' b p (r.putConsumed slot (some p)))
    (same : s.regs = r) :
    Concur Ψ (Attempt.group visit slot branches p s) (Attempt.group visit' slot branches p s) := by
  refine .bind fun prior _ => .bind fun s₁ wrote => .orUndo ?_ _
  obtain ⟨_, rfl⟩ := MatchState.setConsumed_success.mp wrote
  exact firstBranch_concur tidies each (by rw [same])

theorem groupEnd_concur {slot : Nat} {capture : Option Nat} {next : NodeId}
    (after : ConcurAt Ψ visit visit' next p r)
    (recorded : ∀ n start, capture = some n →
      ConcurAt Ψ visit visit' next p (r.putGroup n start (some p)))
    (same : s.regs = r) :
    Concur Ψ (Attempt.groupEnd visit slot capture next p s)
      (Attempt.groupEnd visit' slot capture next p s) := by
  cases capture with
  | none => exact after s same
  | some n =>
    refine .bind fun priorStart _ => .bind fun priorStop _ => .bind fun start _ =>
      .bind fun s₁ wrote => .orUndo ?_ _
    obtain ⟨_, _, rfl⟩ := MatchState.setGroup_success.mp wrote
    exact recorded n start rfl _ (by rw [same])

theorem iterate_concur {l l' : Loop} (slot : l'.slot = l.slot) (body : l'.body = l.body)
    (inside : l.slot < r.consumed.size →
      ConcurAt Ψ visit visit' l.body p (r.putConsumed l.slot (some p)))
    (same : s.regs = r) :
    Concur Ψ (Attempt.iterate visit l p s) (Attempt.iterate visit' l' p s) := by
  unfold Attempt.iterate
  rw [slot, body]
  refine .proceed fun s₁ polled => .bind fun prior _ => .bind fun s₂ wrote => .orUndo ?_ _
  obtain ⟨bound, rfl⟩ := MatchState.setConsumed_success.mp wrote
  rw [polled, same] at bound
  exact inside bound _ (by rw [polled, same])

structure Loop.SameBut (l l' : Loop) : Prop where
  slot : l'.slot = l.slot
  body : l'.body = l.body
  greedy : l'.greedy = l.greedy
  next : l'.next = l.next

theorem repeatStep_concur (tidies : Tidies g t polls visit) {l l' : Loop} (but : l.SameBut l')
    (bounds : ∀ n, r.counts[l.slot]? = some n →
      (l'.min ≤ n ↔ l.min ≤ n) ∧ belowMax n l'.max = belowMax n l.max)
    (inside : l.slot < r.consumed.size →
      ConcurAt Ψ visit visit' l.body p (r.putConsumed l.slot (some p)))
    (after : ConcurAt Ψ visit visit' l.next p r) (same : s.regs = r) :
    Concur Ψ (Attempt.repeatStep visit l p s) (Attempt.repeatStep visit' l' p s) := by
  unfold Attempt.repeatStep
  rw [but.slot, but.greedy, but.next]
  refine .bind fun n counted => ?_
  obtain ⟨enough, room⟩ := bounds n (same ▸ MatchState.count_success.mp counted)
  have again {s : MatchState} (same : s.regs = r) :
      Concur Ψ (if belowMax n l.max then Attempt.iterate visit l p s else return (none, s))
        (if belowMax n l'.max then Attempt.iterate visit' l' p s else return (none, s)) := by
    rw [room]
    exact .guarded fun _ => iterate_concur but.slot but.body inside same
  have again_restores {s s' : MatchState} (failed : (if belowMax n l.max then
      Attempt.iterate visit l p s else return (none, s)) = .ok (none, s')) : s'.regs = s.regs := by
    split at failed
    · exact (iterate_tidy (F := fun _ => False) tidies (fun _ => False.elim) (fun _ => False.elim)
        failed).restored rfl
    · cases failed; rfl
  simp only [enough]
  split
  · exact (again same).orElse fun s₁ failed =>
      .guarded fun _ => after s₁ ((again_restores failed).trans same)
  · split
    · exact (after s same).orElse fun s₁ failed => again (((tidies failed).restored rfl).trans same)
    · exact again same

theorem loop_concur (tidies : Tidies g t polls visit) {l l' : Loop} (but : l.SameBut l')
    (bounds : (l'.min ≤ 0 ↔ l.min ≤ 0) ∧ belowMax 0 l'.max = belowMax 0 l.max)
    (inside : l.slot < ((r.putCount l.slot 0).putConsumed l.slot none).consumed.size →
      ConcurAt Ψ visit visit' l.body p
        (((r.putCount l.slot 0).putConsumed l.slot none).putConsumed l.slot (some p)))
    (after : ConcurAt Ψ visit visit' l.next p ((r.putCount l.slot 0).putConsumed l.slot none))
    (same : s.regs = r) :
    Concur Ψ (Attempt.loop visit l p s) (Attempt.loop visit' l' p s) := by
  unfold Attempt.loop
  rw [but.slot]
  refine .bind fun priorCount _ => .bind fun prior _ => .bind fun s₁ counted =>
    .bind fun s₂ begun => .orUndo ?_ _
  obtain ⟨bound, rfl⟩ := MatchState.setCount_success.mp counted
  obtain ⟨_, rfl⟩ := MatchState.setConsumed_success.mp begun
  refine repeatStep_concur tidies but (fun n counted => ?_) inside after (by rw [same])
  rw [same] at bound
  obtain rfl : 0 = n := by simpa [Registers.putCount, Registers.putConsumed, bound] using counted
  exact bounds

theorem loopTail_concur (tidies : Tidies g t polls visit) {l : Loop}
    (inside : ∀ n, l.slot < r.consumed.size → ConcurAt Ψ visit visit' l.body p
      ((r.putCount l.slot n).putConsumed l.slot (some p)))
    (after : ConcurAt Ψ visit visit' l.next p r)
    (stepped : ∀ n, ConcurAt Ψ visit visit' l.next p (r.putCount l.slot n)) (same : s.regs = r) :
    Concur Ψ (Attempt.loopTail visit l p s) (Attempt.loopTail visit' l p s) := by
  refine .bind fun began _ => ?_
  split
  · exact after s same
  · refine .bind fun n _ => .bind fun s₁ wrote => .orUndo ?_ _
    obtain ⟨_, rfl⟩ := MatchState.setCount_success.mp wrote
    exact repeatStep_concur tidies ⟨rfl, rfl, rfl, rfl⟩ (fun _ _ => ⟨.rfl, rfl⟩) (inside _)
      (stepped _) (by rw [same])

theorem loopTail_still_concur {l l' : Loop} (but : l.SameBut l')
    (began : r.consumed[l.slot]? = some (some p)) (after : ConcurAt Ψ visit visit' l.next p r)
    (same : s.regs = r) :
    Concur Ψ (Attempt.loopTail visit l p s) (Attempt.loopTail visit' l' p s) := by
  have read : s.consumed l.slot = .ok (some p) := MatchState.consumed_success.mpr (same ▸ began)
  simp only [Attempt.loopTail, but.slot, but.next, read, bind, Except.bind, if_true]
  exact after s same

theorem leafLoopGreedy_concur (tidies : Tidies g t polls visit) {leaf : Attempt.LeafEnd} {min : Nat}
    {max : Option Nat} {next : NodeId} (after : ∀ q, ConcurAt Ψ visit visit' next q r)
    (same : s.regs = r) :
    Concur Ψ (Attempt.leafLoopGreedy visit t leaf min max next p s)
      (Attempt.leafLoopGreedy visit' t leaf min max next p s) := by
  refine .bind fun ends _ => firstSuccess_concur tidies (fun c member => ?_) same
  obtain ⟨q, _, rfl⟩ := List.mem_map.mp member
  exact after q

theorem leafLoopReluctant_concur (tidies : Tidies g t polls visit) {leaf : Attempt.LeafEnd}
    {next : NodeId} (after : ∀ q, ConcurAt Ψ visit visit' next q r) {n required : Nat}
    (same : s.regs = r) :
    Concur Ψ (Attempt.leafLoopReluctant visit leaf next n required p s)
      (Attempt.leafLoopReluctant visit' leaf next n required p s) := by
  induction n generalizing required p s with
  | zero =>
    unfold Attempt.leafLoopReluctant
    refine .proceed fun s₁ polled => .orElse (.guarded fun _ => ?_) fun s₂ _ => .failure s₂
    exact after p s₁ (polled.trans same)
  | succ n ih =>
    unfold Attempt.leafLoopReluctant
    refine .proceed fun s₁ polled => .orElse (.guarded fun _ => ?_) fun s₂ failed =>
      .bind fun stop _ => ?_
    · exact after p s₁ (polled.trans same)
    · have restored : s₂.regs = s₁.regs := by
        split at failed
        · exact (tidies failed).restored rfl
        · cases failed; rfl
      cases stop with
      | none => exact .failure s₂
      | some q => exact .guarded fun _ => ih (restored.trans (polled.trans same))

theorem atomic_concur (tidies : Tidies g t polls visit) {slot : Nat} {branches : List NodeId}
    {inner : Frame} {next : NodeId} {Θ : Nat → Registers → Prop}
    (enclosed : ∀ b ∈ branches, g.Confined b inner)
    (each : ∀ b ∈ branches, ConcurAt Θ visit visit' b p (r.putConsumed slot (some p)))
    (after : ∀ q r', Θ q r' → (r.putConsumed slot (some p)).AgreeOutside inner r' →
      ConcurAt Ψ visit visit' next q r') (same : s.regs = r) :
    Concur Ψ (Attempt.atomic visit slot branches inner next p s)
      (Attempt.atomic visit' slot branches inner next p s) := by
  refine .bind fun prior _ => .bind fun saved _ => .bind fun s₁ wrote => ?_
  obtain ⟨_, rfl⟩ := MatchState.setConsumed_success.mp wrote
  refine (firstBranch_concur tidies each (by rw [same])).andThen
    (fun s₂ _ => .bind fun s₃ _ => .failure s₃) fun q s₂ answer holds => .orUndo ?_ _
  have committed := (committed_tidy tidies enclosed answer).framed inner rfl
  exact after q s₂.regs holds (same ▸ committed) s₂ rfl

theorem lookAhead_concur (tidies : Tidies g t polls visit) {slot : Nat} {negative : Bool}
    {branches : List NodeId} {inner : Frame} {next : NodeId} {Θ : Nat → Registers → Prop}
    (enclosed : ∀ b ∈ branches, g.Confined b inner)
    (each : ∀ b ∈ branches, ConcurAt Θ visit visit' b p (r.putConsumed slot (some p)))
    (after : ∀ r', r' = r.putConsumed slot (some p) ∨ (negative = false ∧ ∃ q, Θ q r') →
      (r.putConsumed slot (some p)).AgreeOutside inner r' → ConcurAt Ψ visit visit' next p r')
    (same : s.regs = r) :
    Concur Ψ (Attempt.lookAhead visit slot negative branches inner next p s)
      (Attempt.lookAhead visit' slot negative branches inner next p s) := by
  refine .bind fun prior _ => .bind fun saved _ => .bind fun s₁ wrote => ?_
  obtain ⟨_, rfl⟩ := MatchState.setConsumed_success.mp wrote
  have framed {stop : Option Nat} {s₂ : MatchState} (answer : firstBranch visit branches p
      { s with regs := s.regs.putConsumed slot (some p) } = .ok (stop, s₂)) :
      (r.putConsumed slot (some p)).AgreeOutside inner s₂.regs :=
    same ▸ (committed_tidy tidies enclosed answer).framed inner rfl
  refine (firstBranch_concur tidies each (by rw [same])).andThen
    (fun s₂ answer => .orUndo (.guarded fun _ => ?_) _)
    fun q s₂ answer holds => .orUndo (.guarded fun goes => ?_) _
  · have restored : s₂.regs = r.putConsumed slot (some p) :=
      same ▸ firstBranch_restores tidies answer
    exact after s₂.regs (.inl restored) (framed answer) s₂ rfl
  · have positive : negative = false := by
      simpa using (Bool.and_eq_true_iff.mp goes).1
    exact after s₂.regs (.inr ⟨positive, q, holds⟩) (framed answer) s₂ rfl

structure Node.Keeps (n : Node) (I : Registers → Prop) : Prop where
  putConsumed : ∀ {r} slot begun, I r → I (r.putConsumed slot begun)
  putCount : ∀ {r} slot k, I r → I (r.putCount slot k)
  putGroup : ∀ {r k} start stop, n.capture? = some k → I r → I (r.putGroup k start stop)

theorem Graph.attemptWithin_succ (g : Graph) (t : Text) (depth id p : Nat) (s : MatchState) :
    g.attemptWithin t (depth + 1) id p s =
      Attempt.opened (g.visitNode t (g.attemptWithin t depth) id p) s := rfl

theorem Node.keeps_nothing (n : Node) : n.Keeps fun _ => True := by
  constructor <;> intros <;> trivial

theorem Graph.visitNode_concur_of {id : NodeId}
    (rule : ∀ n, g.nodes[id]? = some n →
      ConcurAt Ψ (g.visitNode t visit) (g.visitNode t visit') id p r) :
    ConcurAt Ψ (g.visitNode t visit) (g.visitNode t visit') id p r := by
  cases node : g.nodes[id]? with
  | some n => exact rule n node
  | none =>
    intro s _
    have missing : g.node id = .error .node := by rw [Graph.node, node]
    simp only [visitNode, missing, bind, Except.bind]
    exact ⟨rfl, fun _ _ found => by cases found⟩

/-- Visits that come to the same wherever a node leads to, as long as a condition on the registers
holds that the rule for the node keeps, come to the same at the node. -/
theorem Graph.visitNode_concur (enclosing : g.Enclosing) (tidies : Tidies g t polls visit)
    {I : Registers → Prop} {id : NodeId} {n : Node} (node : g.nodes[id]? = some n)
    (keeps : n.Keeps I)
    (links : ∀ m ∈ g.links n, ∀ q r, I r → ConcurAt (fun _ => I) visit visit' m q r) (holds : I r) :
    ConcurAt (fun _ => I) (g.visitNode t visit) (g.visitNode t visit') id p r := by
  intro s same
  simp only [visitNode, node_success.mpr node, bind, Except.bind]
  cases n with
  | succeed | commit slot => exact .success (same ▸ holds)
  | literal text ignoreCase next | charClass members next | backReference k ignoreCase next
  | anchor condition next =>
    refine .bind fun found _ => ?_
    cases found with
    | none => exact .failure s
    | some q => exact links next (by simp [Graph.links]) q r holds s same
  | sequence children next => exact links _ (by simp [Graph.links]) p r holds s same
  | group slot capture branches next =>
    exact group_concur tidies
      (fun b member => links b member p _ (keeps.putConsumed _ _ holds)) same
  | groupEnd slot capture next =>
    have after := links next (by simp [Graph.links]) p
    exact groupEnd_concur (after r holds)
      (fun k start own => after _ (keeps.putGroup start (some p) own holds)) same
  | loop l =>
    have begun := keeps.putConsumed l.slot none (keeps.putCount l.slot 0 holds)
    exact loop_concur tidies ⟨rfl, rfl, rfl, rfl⟩ ⟨.rfl, rfl⟩
      (fun _ => links l.body (by simp [Graph.links]) p _ (keeps.putConsumed _ _ begun))
      (links l.next (by simp [Graph.links]) p _ begun) same
  | loopTail owner =>
    refine .bind fun found owned => ?_
    cases found with
    | none => exact .failure s
    | some l =>
      have owner := loopAt_success owned
      have body := links l.body (by simp [Graph.links, owner]) p
      have after := links l.next (by simp [Graph.links, owner]) p
      exact loopTail_concur tidies
        (fun k _ => body _ (keeps.putConsumed _ _ (keeps.putCount l.slot k holds)))
        (after r holds) (fun k => after _ (keeps.putCount l.slot k holds)) same
  | leafLoop leaf min max greedy next =>
    have after (q : Nat) := links next (by simp [Graph.links]) q r holds
    dsimp only
    split
    · exact leafLoopGreedy_concur tidies after same
    · exact leafLoopReluctant_concur tidies after same
  | atomic slot branches inner next =>
    have begun := keeps.putConsumed slot (some p) holds
    exact atomic_concur (Θ := fun _ => I) tidies (enclosing node rfl)
      (fun b member => links b (by simp [Graph.links, member]) p _ begun)
      (fun q r' kept _ => links next (by simp [Graph.links]) q r' kept) same
  | lookAhead slot negative branches inner next =>
    have begun := keeps.putConsumed slot (some p) holds
    refine lookAhead_concur (Θ := fun _ => I) tidies (enclosing node rfl)
      (fun b member => links b (by simp [Graph.links, member]) p _ begun)
      (fun r' came _ => links next (by simp [Graph.links]) p r' ?_) same
    obtain rfl | ⟨_, _, kept⟩ := came
    · exact begun
    · exact kept

end Rules

end BacktrackRegex
