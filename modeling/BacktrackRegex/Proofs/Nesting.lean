import BacktrackRegex.Proofs.Ranking
import BacktrackRegex.Proofs.Rollback
import BacktrackRegex.Proofs.Shallow

/-! The nesting of visits. Where a visit leads, less of the text is left, or fewer loops around
could begin an iteration at the same offset, or the node ranks lower. So visits nest no deeper than
the bound that `Graph.attempt` puts on them, whatever the registers hold. -/
namespace BacktrackRegex

def Fits (visit : Visit) (id p : Nat) (begun : Array (Option Nat)) : Prop :=
  ∀ s, s.regs.consumed = begun → Shallow (visit id p s)

namespace Shallow

variable {g : Graph} {t : Text} {visit : Visit} {polls : Nat}

theorem firstSuccess (tidies : Tidies g t polls visit) {choices : List (NodeId × Nat)}
    {s : MatchState} (fits : ∀ c ∈ choices, Fits visit c.1 c.2 s.regs.consumed) :
    Shallow (firstSuccess visit choices s) := by
  induction choices generalizing s with
  | nil => exact .ok _
  | cons choice rest ih =>
    unfold BacktrackRegex.firstSuccess
    split
    · exact .ok _
    · next s' polled =>
      have same := (MatchState.proceed_budget polled).1
      refine .orElse (fits choice List.mem_cons_self s' (by rw [same])) fun s'' failed => ih ?_
      rw [(tidies failed).restored rfl, same]
      exact fun c member => fits c (List.mem_cons_of_mem _ member)

theorem firstBranch (tidies : Tidies g t polls visit) {branches : List NodeId} {p : Nat}
    {s : MatchState} (fits : ∀ b ∈ branches, Fits visit b p s.regs.consumed) :
    Shallow (firstBranch visit branches p s) := by
  apply firstSuccess tidies
  simpa using fits

theorem begin {s : MatchState} {slot : Nat} {p : Option Nat} {f : MatchState → Except Fault α}
    (rest : ∀ s', slot < s.regs.consumed.size →
      s'.regs.consumed = s.regs.consumed.setIfInBounds slot p → Shallow (f s')) :
    Shallow (s.setConsumed slot p >>= f) := by
  apply (setConsumed s slot p).bind
  intro s' wrote
  obtain ⟨bound, rfl⟩ := MatchState.setConsumed_success.mp wrote
  exact rest _ bound rfl

theorem guarded {c : Prop} [Decidable c] {next p : Nat} {s : MatchState}
    (fits : Fits visit next p s.regs.consumed) :
    Shallow (if c then visit next p s else return (none, s)) := by
  split
  · exact fits s rfl
  · exact .ok _

theorem groupRule (tidies : Tidies g t polls visit) {slot p : Nat} {branches : List NodeId}
    {s : MatchState} (fits : ∀ b ∈ branches, Fits visit b p
      (s.regs.consumed.setIfInBounds slot (some p))) :
    Shallow (Attempt.group visit slot branches p s) := by
  apply (read _ _).bind
  intro prior _
  apply begin
  intro s' _ same
  have fits' : ∀ b ∈ branches, Fits visit b p s'.regs.consumed := by
    rw [same]
    exact fits
  have inside := firstBranch tidies fits'
  apply inside.orUndo
  intro failed
  exact setConsumed failed slot prior

theorem groupEndRule {slot p : Nat} {capture : Option Nat} {next : NodeId} {s : MatchState}
    (fits : Fits visit next p s.regs.consumed) :
    Shallow (Attempt.groupEnd visit slot capture next p s) := by
  cases capture with
  | none => exact fits s rfl
  | some n =>
    refine (read _ _).bind fun _ _ => (read _ _).bind fun _ _ => (read _ _).bind fun _ _ =>
      (setGroup _ _ _ _).bind fun s' wrote => ?_
    obtain ⟨_, _, rfl⟩ := MatchState.setGroup_success.mp wrote
    exact Shallow.orUndo (fits _ rfl) fun _ => setGroup _ _ _ _

theorem iterate {l : Loop} {p : Nat} {s : MatchState}
    (body : l.slot < s.regs.consumed.size →
      Fits visit l.body p (s.regs.consumed.setIfInBounds l.slot (some p))) :
    Shallow (Attempt.iterate visit l p s) := by
  unfold Attempt.iterate
  split
  · exact .ok _
  · next s' polled =>
    rw [← (MatchState.proceed_budget polled).1] at body
    exact (read _ _).bind fun _ _ => begin fun _ bound same =>
      (body bound _ same).orUndo fun _ => setConsumed _ _ _

theorem repeatStep (tidies : Tidies g t polls visit) {l : Loop} {p : Nat} {s : MatchState}
    (body : l.slot < s.regs.consumed.size →
      Fits visit l.body p (s.regs.consumed.setIfInBounds l.slot (some p)))
    (next : Fits visit l.next p s.regs.consumed) : Shallow (Attempt.repeatStep visit l p s) := by
  refine (read _ _).bind fun n _ => ?_
  have again (s' : MatchState) (same : s'.regs.consumed = s.regs.consumed) :
      Shallow (if belowMax n l.max then Attempt.iterate visit l p s' else return (none, s')) := by
    split
    · exact iterate (same ▸ body)
    · exact .ok _
  dsimp only
  split
  · refine (again s rfl).orElse fun s' failed => ?_
    have restored : s'.regs = s.regs := by
      split at failed
      · exact (iterate_tidy (F := fun _ => False) tidies (by simp) (by simp) failed).restored rfl
      · cases failed; rfl
    exact guarded (restored ▸ next)
  · split
    · exact (next s rfl).orElse fun s' failed => again s' (by rw [(tidies failed).restored rfl])
    · exact again s rfl

theorem loopRule (tidies : Tidies g t polls visit) {l : Loop} {p : Nat} {s : MatchState}
    (body : l.slot < s.regs.consumed.size →
      Fits visit l.body p (s.regs.consumed.setIfInBounds l.slot (some p)))
    (next : Fits visit l.next p (s.regs.consumed.setIfInBounds l.slot none)) :
    Shallow (Attempt.loop visit l p s) := by
  refine (read _ _).bind fun _ _ => (read _ _).bind fun _ _ =>
    (setCount _ _ _).bind fun s₁ counted => begin fun s₂ bound same => ?_
  obtain ⟨_, rfl⟩ := MatchState.setCount_success.mp counted
  change s₂.regs.consumed = s.regs.consumed.setIfInBounds l.slot none at same
  refine (repeatStep tidies ?_ (same ▸ next)).orUndo fun _ =>
    (setCount _ _ _).bind fun _ _ => setConsumed _ _ _
  rw [same, Array.setIfInBounds_setIfInBounds]
  exact fun _ => body bound

theorem loopTailRule (tidies : Tidies g t polls visit) {l : Loop} {p : Nat} {s : MatchState}
    (body : l.slot < s.regs.consumed.size → s.regs.consumed[l.slot]? ≠ some (some p) →
      Fits visit l.body p (s.regs.consumed.setIfInBounds l.slot (some p)))
    (next : Fits visit l.next p s.regs.consumed) : Shallow (Attempt.loopTail visit l p s) := by
  refine (read _ _).bind fun began was => ?_
  split
  · exact next s rfl
  · next moved =>
    refine (read _ _).bind fun _ _ => (setCount _ _ _).bind fun s₁ counted => ?_
    obtain ⟨_, rfl⟩ := MatchState.setCount_success.mp counted
    refine Shallow.orUndo (repeatStep tidies (fun bound => body bound fun same => moved ?_) next)
      fun _ => setCount _ _ _
    exact Option.some.inj ((MatchState.consumed_success.mp was).symm.trans same)

theorem leafLoopGreedy (tidies : Tidies g t polls visit) {leaf : Attempt.LeafEnd}
    (shallow : ∀ p, Shallow (leaf p)) (forward : ∀ {p q}, leaf p = .ok (some q) → t.Reaches p q)
    {min : Nat} {max : Option Nat} {next p : Nat} {s : MatchState}
    (fits : ∀ q, t.Reaches p q → Fits visit next q s.regs.consumed) :
    Shallow (Attempt.leafLoopGreedy visit t leaf min max next p s) := by
  refine (leafEnds shallow _ _).bind fun ends reached => firstSuccess tidies fun c member => ?_
  obtain ⟨q, later, rfl⟩ := List.mem_map.mp member
  exact fits q (Attempt.reaches_of_mem_leafEnds forward reached
    (List.mem_of_mem_drop (List.mem_reverse.mp later)))

theorem leafLoopReluctant (tidies : Tidies g t polls visit) {leaf : Attempt.LeafEnd}
    (shallow : ∀ p, Shallow (leaf p)) (forward : ∀ {p q}, leaf p = .ok (some q) → t.Reaches p q)
    {n required next p : Nat} {s : MatchState}
    (fits : ∀ q, t.Reaches p q → Fits visit next q s.regs.consumed) :
    Shallow (Attempt.leafLoopReluctant visit leaf next n required p s) := by
  induction n generalizing required p s with
  | zero =>
    unfold Attempt.leafLoopReluctant
    split
    · exact .ok _
    · next s' polled =>
      have same := (MatchState.proceed_budget polled).1
      exact (guarded (same ▸ fits p (.refl t p))).orElse fun _ _ => .ok _
  | succ n ih =>
    unfold Attempt.leafLoopReluctant
    split
    · exact .ok _
    · next s' polled =>
      have same := (MatchState.proceed_budget polled).1
      refine (guarded (same ▸ fits p (.refl t p))).orElse fun s'' failed =>
        (shallow p).bind fun found reached => ?_
      have restored : s''.regs = s.regs :=
        ((guarded_tidy (F := fun _ => False) tidies (by simp) failed).restored rfl).trans same
      cases found with
      | none => exact .ok _
      | some stop =>
        dsimp only
        split
        · exact ih fun q further => restored ▸ fits q ((forward reached).trans further)
        · exact .ok _

theorem atomicRule (tidies : Tidies g t polls visit) {slot p : Nat} {branches : List NodeId}
    {inner : Frame} {next : NodeId} {s : MatchState} (enclosed : ∀ b ∈ branches, g.Confined b inner)
    (fits : ∀ b ∈ branches, Fits visit b p (s.regs.consumed.setIfInBounds slot (some p)))
    (after : ∀ q begun, t.Reaches p q →
      (∀ k, k ≠ slot → inner.slots.contains k = false → begun[k]? = s.regs.consumed[k]?) →
      Fits visit next q begun) :
    Shallow (Attempt.atomic visit slot branches inner next p s) := by
  refine (read _ _).bind fun _ _ => (save _ _).bind fun _ _ => begin fun s₁ _ same =>
    (firstBranch tidies (same ▸ fits)).bind fun (found, s₂) answer => ?_
  have tidy := committed_tidy tidies enclosed answer
  cases found with
  | none => exact (setConsumed _ _ _).bind fun _ _ => .ok _
  | some commit =>
    refine Shallow.orUndo (after commit _ (tidy.forward commit rfl) (fun k other out => ?_) s₂ rfl)
      fun _ => setConsumed _ _ _
    rw [(tidy.framed inner rfl).consumed k out, same,
      Array.getElem?_setIfInBounds_ne (Ne.symm other)]

theorem lookAheadRule (tidies : Tidies g t polls visit) {slot p : Nat} {negative : Bool}
    {branches : List NodeId} {inner : Frame} {next : NodeId} {s : MatchState}
    (enclosed : ∀ b ∈ branches, g.Confined b inner)
    (fits : ∀ b ∈ branches, Fits visit b p (s.regs.consumed.setIfInBounds slot (some p)))
    (after : ∀ begun, (∀ k, k ≠ slot → inner.slots.contains k = false →
      begun[k]? = s.regs.consumed[k]?) → Fits visit next p begun) :
    Shallow (Attempt.lookAhead visit slot negative branches inner next p s) := by
  refine (read _ _).bind fun _ _ => (save _ _).bind fun _ _ => begin fun s₁ _ same =>
    (firstBranch tidies (same ▸ fits)).bind fun (found, s₂) answer => ?_
  have tidy := committed_tidy tidies enclosed answer
  refine Shallow.orUndo (guarded (after _ fun k other out => ?_)) fun _ => setConsumed _ _ _
  rw [(tidy.framed inner rfl).consumed k out, same,
    Array.getElem?_setIfInBounds_ne (Ne.symm other)]

end Shallow

theorem countP_lt {xs : List α} {few many : α → Bool} (weaker : ∀ x, few x = true → many x = true)
    {x : α} (member : x ∈ xs) (only : many x = true) (left : few x = false) :
    xs.countP few < xs.countP many := by
  induction xs with
  | nil => cases member
  | cons y xs ih =>
    have le := List.countP_mono_left (l := xs) fun x _ => weaker x
    rcases List.mem_cons.mp member with rfl | later
    · simp only [List.countP_cons, only, left, if_true, Bool.false_eq_true, if_false]
      omega
    · have less := ih later
      simp only [List.countP_cons]
      cases first : few y with
      | true => simp only [weaker y first, if_true]; omega
      | false => simp only [Bool.false_eq_true, if_false]; omega

theorem radix_lt {x y r k base : Nat} (less : x < y) (digit : r < base) :
    x * base + r < y * base + k := by
  calc
    x * base + r < (x + 1) * base := by rw [Nat.succ_mul]; omega
    _ ≤ y * base := Nat.mul_le_mul_right _ less
    _ ≤ y * base + k := Nat.le_add_right _ _

namespace Order

def stale (o : Order) (id p : Nat) (begun : Array (Option Nat)) : Nat :=
  (o.around id).countP fun k => begun[k]? != some (some p)

/-- What bounds the visits that nest inside one of the node `id` at `p`: first the text that is
left, then the loops that could begin an iteration, then the rank. -/
def load (o : Order) (g : Graph) (t : Text) (id p : Nat) (begun : Array (Option Nat)) : Nat :=
  ((t.size - p) * (g.size + 1) + o.stale id p begun) * g.size + o.rank id

variable {o : Order} {g : Graph} {t : Text} {id y p q : Nat} {begun begun' : Array (Option Nat)}

theorem stale_le (around : o.around y <:+ o.around id)
    (same : ∀ k ∈ o.around id, begun'[k]? = begun[k]?) :
    o.stale y p begun' ≤ o.stale id p begun := by
  have agree : (o.around id).countP (fun k => begun'[k]? != some (some p)) = o.stale id p begun :=
    List.countP_congr fun k member => by rw [same k member]
  exact agree ▸ around.sublist.countP_le

theorem load_exit (above : o.Above id y) (rank : o.rank id < g.size)
    (deep : (o.around id).length ≤ g.size) (reaches : t.Reaches p q)
    (same : ∀ k ∈ o.around id, begun'[k]? = begun[k]?) :
    o.load g t y q begun' < o.load g t id p begun := by
  rcases Nat.eq_or_lt_of_le reaches.le with rfl | moved
  · have := Nat.mul_le_mul_right g.size
      (Nat.add_le_add_left (stale_le (p := p) above.around same) ((t.size - p) * (g.size + 1)))
    have := above.rank
    unfold load
    omega
  · have := reaches.le_size (Nat.ne_of_lt moved)
    have few : o.stale y q begun' < g.size + 1 :=
      Nat.lt_succ_of_le (Nat.le_trans List.countP_le_length
        (Nat.le_trans above.around.length_le deep))
    exact radix_lt (radix_lt (by omega) few) (Nat.lt_trans above.rank rank)

theorem load_enter {l : Loop} (ordered : Ordered g o id (.loop l))
    (bound : l.slot < begun.size) :
    o.load g t l.body p (begun.setIfInBounds l.slot (some p)) < o.load g t id p begun := by
  obtain ⟨rank, around⟩ := ordered.enters l rfl
  have fresh := ordered.own l.slot (by simp) rfl
  have same : o.stale l.body p (begun.setIfInBounds l.slot (some p)) = o.stale id p begun := by
    unfold stale
    rw [around, List.countP_cons]
    simp only [Array.getElem?_setIfInBounds_self_of_lt bound, bne_self_eq_false,
      Bool.false_eq_true, if_false, Nat.add_zero]
    refine List.countP_congr fun k member => ?_
    rw [Array.getElem?_setIfInBounds_ne (by rintro rfl; exact fresh member)]
  unfold load
  rw [same]
  omega

theorem load_again {owner : Nat} {l : Loop} (ordered : Ordered g o id (.loopTail owner))
    (owned : g.ownedLoop? owner = some l) (rank : o.rank l.body < g.size)
    (bound : l.slot < begun.size) (moved : begun[l.slot]? ≠ some (some p)) :
    o.load g t l.body p (begun.setIfInBounds l.slot (some p)) < o.load g t id p begun := by
  obtain ⟨around, member⟩ := ordered.again owner l rfl owned
  refine radix_lt (Nat.add_lt_add_left ?_ _) rank
  unfold stale
  rw [around]
  refine countP_lt (fun k late => ?_) member (bne_iff_ne.mpr moved) (by simp [bound])
  rcases Decidable.em (k = l.slot) with rfl | other
  · exact bne_iff_ne.mpr moved
  · rwa [Array.getElem?_setIfInBounds_ne (Ne.symm other)] at late

end Order

section Visits

variable {g : Graph} {t : Text} {o : Order}

theorem visitNode_shallow (enclosing : g.Enclosing)
    (ordered : ∀ {id n}, g.nodes[id]? = some n → Ordered g o id n)
    (small : ∀ {id}, id < g.size → o.rank id < g.size ∧ (o.around id).length ≤ g.size)
    {visit : Visit} {polls : Nat} (tidies : Tidies g t polls visit) {id p : Nat} {s : MatchState}
    (fits : ∀ {y q begun}, o.load g t y q begun < o.load g t id p s.regs.consumed →
      Fits visit y q begun) : Shallow (g.visitNode t visit id p s) := by
  refine (Shallow.node g id).bind fun n found => ?_
  have node := Graph.node_success.mp found
  have here := ordered node
  have ⟨rank, deep⟩ := small (Array.getElem?_eq_some_iff.mp node).1
  have exit {y q : Nat} {begun : Array (Option Nat)} (member : y ∈ g.exits n)
      (reaches : t.Reaches p q)
      (same : ∀ k ∈ o.around id, begun[k]? = s.regs.consumed[k]?) : Fits visit y q begun :=
    fits (Order.load_exit (here.exits y member) rank deep reaches same)
  have wrote {slot : Nat} {begun : Option Nat} (own : slot ∉ o.around id) :
      ∀ k ∈ o.around id, (s.regs.consumed.setIfInBounds slot begun)[k]? = s.regs.consumed[k]? :=
    fun k member => Array.getElem?_setIfInBounds_ne (by rintro rfl; exact own member)
  cases n with
  | succeed | commit slot => exact .ok _
  | literal text ignoreCase next | charClass members next | backReference k ignoreCase next
  | anchor condition next =>
    refine (Shallow.leafEnd g t s id p).bind fun found reached => ?_
    cases found with
    | none => exact .ok _
    | some stop =>
      exact exit (by simp [Graph.exits, Graph.links]) (Graph.leafEnd_reaches reached)
        (fun _ _ => rfl) s rfl
  | sequence children next =>
    exact exit (by simp [Graph.exits, Graph.links]) (.refl t p) (fun _ _ => rfl) s rfl
  | group slot capture branches next =>
    have own := here.own slot (by simp) rfl
    exact .groupRule tidies fun b member => exit member (.refl t p) (wrote own)
  | groupEnd slot capture next =>
    exact .groupEndRule (exit (by simp [Graph.exits, Graph.links]) (.refl t p) fun _ _ => rfl)
  | loop l =>
    have own := here.own l.slot (by simp) rfl
    exact .loopRule tidies (fun bound => fits (Order.load_enter here bound))
      (exit (by simp [Graph.exits]) (.refl t p) (wrote own))
  | loopTail owner =>
    refine (Shallow.loopAt g owner).bind fun found owned => ?_
    cases found with
    | none => exact .ok _
    | some l =>
      have owned := Graph.loopAt_success owned
      have owning := Graph.ownedLoop_iff.mp owned
      have lower := ((ordered owning).enters l rfl).1
      have bound := (small (Array.getElem?_eq_some_iff.mp owning).1).1
      refine .loopTailRule tidies (fun sized moved => ?_) ?_
      · exact fits (Order.load_again here owned (Nat.lt_trans lower bound) sized moved)
      · exact exit (by simp [Graph.exits, owned]) (.refl t p) fun _ _ => rfl
  | leafLoop body min max greedy next =>
    have after (q) (reaches : t.Reaches p q) : Fits visit next q s.regs.consumed :=
      exit (by simp [Graph.exits, Graph.links]) reaches fun _ _ => rfl
    have leaf := Shallow.leafEnd g t s body
    dsimp only
    split
    · exact .leafLoopGreedy tidies leaf Graph.leafEnd_reaches after
    · exact .leafLoopReluctant tidies leaf Graph.leafEnd_reaches after
  | atomic slot branches inner next =>
    have own := here.own slot (by simp) rfl
    apply Shallow.atomicRule tidies (enclosing node rfl)
    · exact fun b member =>
        exit (by simp [Graph.exits, Graph.links, member]) (.refl t p) (wrote own)
    · intro q begun reaches same
      exact exit (by simp [Graph.exits, Graph.links]) reaches fun k member =>
        same k (by rintro rfl; exact own member) (here.apart _ _ rfl k member)
  | lookAhead slot negative branches inner next =>
    have own := here.own slot (by simp) rfl
    apply Shallow.lookAheadRule tidies (enclosing node rfl)
    · exact fun b member =>
        exit (by simp [Graph.exits, Graph.links, member]) (.refl t p) (wrote own)
    · intro begun same
      exact exit (by simp [Graph.exits, Graph.links]) (.refl t p) fun k member =>
        same k (by rintro rfl; exact own member) (here.apart _ _ rfl k member)

theorem attemptWithin_shallow (enclosing : g.Enclosing)
    (ordered : ∀ {id n}, g.nodes[id]? = some n → Ordered g o id n)
    (small : ∀ {id}, id < g.size → o.rank id < g.size ∧ (o.around id).length ≤ g.size)
    {depth id p : Nat} {s : MatchState} (enough : o.load g t id p s.regs.consumed < depth) :
    Shallow (g.attemptWithin t depth id p s) := by
  induction depth generalizing id p s with
  | zero => omega
  | succ depth ih =>
    unfold Graph.attemptWithin
    split
    · exact .ok _
    · next s' entered =>
      have same := (MatchState.enter_budget entered).1
      refine (visitNode_shallow enclosing ordered small (attemptWithin_tidy enclosing depth)
        fun less s'' begun => ih ?_).bind fun _ _ => .ok _
      rw [same] at less
      rw [begun]
      omega

end Visits

theorem Order.load_lt_nestingBound {o : Order} {g : Graph} {id : Nat} (t : Text) (p : Nat)
    (begun : Array (Option Nat)) (rank : o.rank id < g.size)
    (deep : (o.around id).length ≤ g.size) : o.load g t id p begun < g.nestingBound t := by
  have few : o.stale id p begun < g.size + 1 :=
    Nat.lt_succ_of_le (Nat.le_trans List.countP_le_length deep)
  have left := Nat.lt_succ_of_le (Nat.sub_le t.size p)
  have radix := radix_lt (k := 0) (radix_lt (k := 0) left few) rank
  calc
    o.load g t id p begun < (t.size + 1) * (g.size + 1) * g.size := radix
    _ ≤ (t.size + 1) * (g.size + 1) * (g.size + 1) := Nat.mul_le_mul_left _ (Nat.le_succ _)
    _ ≤ 2 * ((t.size + 1) * (g.size + 1) * (g.size + 1)) := by omega
    _ = g.nestingBound t := by simp only [Graph.nestingBound, Nat.mul_assoc]

/-- The bound on nesting is never met: whatever node is visited, at whatever offset and with
whatever registers, the visit ends with an answer or another fault. -/
theorem Expr.Compiled.attemptWithin_shallow {e : Expr} {g : Graph} (compiled : e.Compiled g)
    {t : Text} {depth : Nat} (enough : g.nestingBound t ≤ depth) (id p : Nat) (s : MatchState) :
    Shallow (g.attemptWithin t depth id p s) := by
  obtain ⟨o, ordered, small⟩ := compiled.ordered
  rcases Nat.lt_or_ge id g.size with inside | outside
  · obtain ⟨rank, deep⟩ := small inside
    exact BacktrackRegex.attemptWithin_shallow compiled.enclosing ordered small
      (Nat.lt_of_lt_of_le (Order.load_lt_nestingBound t p _ rank deep) enough)
  · have positive : 0 < g.nestingBound t := by
      rw [Graph.nestingBound]
      exact Nat.mul_pos (Nat.mul_pos Nat.two_pos (Nat.succ_pos _))
        (Nat.mul_pos (Nat.succ_pos _) (Nat.succ_pos _))
    obtain ⟨depth, rfl⟩ := Nat.exists_eq_succ_of_ne_zero
      (Nat.ne_of_gt (Nat.lt_of_lt_of_le positive enough))
    have missing : g.node id = .error .node := by
      rw [Graph.node, Array.getElem?_eq_none outside]
    unfold Graph.attemptWithin
    split
    · exact .ok _
    · exact fun same => by simp [Graph.visitNode, missing, bind, Except.bind] at same

end BacktrackRegex
