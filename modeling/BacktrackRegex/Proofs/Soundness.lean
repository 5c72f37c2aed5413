import BacktrackRegex.Proofs.Yields

/-! What keeps attempts free of faults, whatever the limits. Registers are sound at an offset if all
of them are there and the captures hold pieces of the text that end no later; captures inside
lookaheads may end later. From sound registers each rule meets no fault, unless the visits it makes
do, and what succeeds leaves registers that are sound where it ended. -/
namespace BacktrackRegex

namespace Registers

def Paired (r : Registers) : Prop :=
  ∀ n : Nat, r.starts[n]?.join.isSome = r.ends[n]?.join.isSome

theorem Paired.putGroup {r : Registers} (paired : r.Paired) {n : Nat}
    (starts : n < r.starts.size) (ends : n < r.ends.size) (start stop : Nat) :
    (r.putGroup n (some start) (some stop)).Paired := by
  intro k
  by_cases here : n = k
  · subst here
    simp [Registers.putGroup, starts, ends]
  · simpa [Registers.putGroup, here] using paired k

theorem held_eq_some {r : Registers} {n : Nat} {s : Span} : r.held[n]? = some (some s) ↔
    r.starts[n]? = some (some s.start) ∧ r.ends[n]? = some (some s.stop) := by
  rw [held, Array.getElem?_toList, Array.getElem?_zipWith]
  obtain ⟨start, stop⟩ := s
  cases r.starts[n]? with
  | none => simp
  | some left =>
    cases r.ends[n]? with
    | none => simp
    | some right =>
      cases left <;> cases right <;> simp

end Registers

structure Course where
  g : Graph
  t : Text
  origin : Nat
  start : Nat
  ahead : Nat → Prop

namespace Course

variable {c : Course}

/-- A piece of the text that capture `n` may hold when a match that began at `c.start` has come to
`p`. -/
structure Piece (c : Course) (p n : Nat) (s : Span) : Prop extends c.t.Piece s where
  later : c.start ≤ s.start
  within : s.stop ≤ p ∨ c.ahead n

structure Sound (c : Course) (p : Nat) (r : Registers) : Prop where
  fitted : Fitted c.g c.origin r
  paired : r.Paired
  boundary : c.t.isBoundary p = true
  later : c.start ≤ p
  pieces : ∀ {n s}, r.held[n]? = some (some s) → c.Piece p n s

namespace Sound

variable {p q : Nat} {r r' : Registers}

theorem valid (sound : c.Sound p r) : r.held.Valid c.t := by
  intro s member
  obtain ⟨n, found⟩ := List.mem_iff_getElem?.mp member
  exact (sound.pieces found).toPiece

theorem write (sound : c.Sound p r) (shape : r.SameShape r') (starts : r'.starts = r.starts)
    (ends : r'.ends = r.ends) : c.Sound p r' := by
  constructor
  case fitted => exact sound.fitted.same shape
  case paired => simpa only [Registers.Paired, starts, ends] using sound.paired
  case boundary => exact sound.boundary
  case later => exact sound.later
  case pieces =>
    intro n s found
    exact sound.pieces (by simpa only [Registers.held, starts, ends] using found)

theorem putConsumed (sound : c.Sound p r) (slot : Nat) (begun : Option Nat) :
    c.Sound p (r.putConsumed slot begun) := by
  have shape := Registers.sameShape_putConsumed r slot begun
  exact sound.write shape rfl rfl

theorem putCount (sound : c.Sound p r) (slot n : Nat) : c.Sound p (r.putCount slot n) := by
  have shape := Registers.sameShape_putCount r slot n
  exact sound.write shape rfl rfl

theorem putGroup (sound : c.Sound p r) {n begun : Nat} (inside : n ≤ c.g.captures)
    (valid : c.t.isBoundary begun = true) (later : c.start ≤ begun)
    (reaches : c.t.Reaches begun p) : c.Sound p (r.putGroup n (some begun) (some p)) := by
  constructor
  case fitted => exact sound.fitted.same (Registers.sameShape_putGroup r n _ _)
  case paired =>
    exact sound.paired.putGroup (by rw [sound.fitted.starts]; omega)
      (by rw [sound.fitted.ends]; omega) begun p
  case boundary => exact sound.boundary
  case later => exact sound.later
  case pieces =>
    intro k s found
    rw [Registers.held_putGroup, List.getElem?_set] at found
    split at found
    · split at found
      · cases found
        exact ⟨⟨reaches.le, valid, sound.boundary⟩, later, .inl (Nat.le_refl p)⟩
      · cases found
    · exact sound.pieces found

theorem onward (sound : c.Sound p r) (reaches : c.t.Reaches p q) : c.Sound q r := by
  constructor
  case fitted => exact sound.fitted
  case paired => exact sound.paired
  case boundary => exact reaches.boundary sound.boundary
  case later => exact Nat.le_trans sound.later reaches.le
  case pieces =>
    intro n s found
    have piece := sound.pieces found
    exact { piece with within := piece.within.imp_left (Nat.le_trans · reaches.le) }

theorem back {inner : Frame} (before : c.Sound p r) (after : c.Sound q r')
    (same : r.AgreeOutside inner r')
    (ahead : ∀ n, inner.captures.contains n = true → c.ahead n) : c.Sound p r' := by
  constructor
  case fitted => exact after.fitted
  case paired => exact after.paired
  case boundary => exact before.boundary
  case later => exact before.later
  case pieces =>
    intro n s found
    have piece := after.pieces found
    refine { piece with within := ?_ }
    cases inside : inner.captures.contains n with
    | true => exact .inr (ahead n inside)
    | false =>
      rw [Registers.held_eq_some, same.starts n inside, same.ends n inside,
        ← Registers.held_eq_some] at found
      exact (before.pieces found).within

end Sound

/-- An attempt met no fault but too deep a nesting and, if it succeeded, left registers that are
sound where it ended. -/
def Endures (c : Course) (x : Attempted) : Prop :=
  match x with
  | .ok (some q, s) => c.Sound q s.regs
  | .ok (none, _) => True
  | .error e => e = .nesting

namespace Endures

variable {a : Attempted}

theorem orElse {other : MatchState → Attempted} (first : c.Endures a)
    (rest : ∀ s, a = .ok (none, s) → c.Endures (other s)) : c.Endures (a.orElse other) := by
  match a, first with
  | .error e, first => exact first
  | .ok (some q, s), first => exact first
  | .ok (none, s), _ => exact rest s rfl

theorem orUndo {undo : MatchState → Except Fault MatchState} (inner : c.Endures a)
    (undone : ∀ s, a = .ok (none, s) → ∃ s', undo s = .ok s') : c.Endures (a.orUndo undo) := by
  match a, inner with
  | .error e, inner => exact inner
  | .ok (some q, s), inner => exact inner
  | .ok (none, s), _ =>
    obtain ⟨s', same⟩ := undone s rfl
    simp [Attempted.orUndo, Endures, same, bind, Except.bind, pure, Except.pure]

end Endures

def Keeps (c : Course) (attempt : MatchState → Attempted) (p : Nat) (r : Registers) : Prop :=
  ∀ s, s.regs = r → c.Sound p r → c.Endures (attempt s)

namespace Keeps

variable {visit : Visit} {polls p next : Nat} {r : Registers}

theorem failure : c.Keeps (fun s => return (none, s)) p r := by
  intro s _ _
  trivial

theorem guarded {holds : Prop} [Decidable holds] (after : c.Keeps (visit next p) p r) :
    c.Keeps (fun s => if holds then visit next p s else return (none, s)) p r := by
  intro s same sound
  dsimp only
  split
  · exact after s same sound
  · trivial

theorem proceed {k : MatchState → Attempted} (rest : c.Keeps k p r) :
    c.Keeps (fun s => match s.proceed with
      | (false, s) => return (none, s)
      | (true, s) => k s) p r := by
  intro s same sound
  dsimp only
  split
  · trivial
  · next s' polled => exact rest s' ((MatchState.proceed_budget polled).1.trans same) sound

theorem firstSuccess (tidies : Tidies c.g c.t polls visit) {choices : List (NodeId × Nat)}
    (each : ∀ choice ∈ choices, c.Keeps (visit choice.1 choice.2) p r) :
    c.Keeps (firstSuccess visit choices) p r := by
  induction choices with
  | nil => exact failure
  | cons choice rest ih =>
    apply proceed
    intro s same sound
    refine (each choice List.mem_cons_self s same sound).orElse fun s' failed => ?_
    exact ih (fun choice member => each choice (List.mem_cons_of_mem _ member)) s'
      (((tidies failed).restored rfl).trans same) sound

theorem branches (tidies : Tidies c.g c.t polls visit) {branches : List NodeId}
    (each : ∀ b ∈ branches, c.Keeps (visit b p) p r) :
    c.Keeps (firstBranch visit branches p) p r := by
  apply firstSuccess tidies
  simpa using each

theorem begin {slot : Nat} {begun : Option Nat} {inner : MatchState → Attempted}
    (bound : slot < c.g.slots) (restores : ∀ {s s'}, inner s = .ok (none, s') → s'.regs = s.regs)
    (keeps : c.Keeps inner p (r.putConsumed slot begun)) :
    c.Keeps (fun s => do
      let prior ← s.consumed slot
      let s ← s.setConsumed slot begun
      Attempted.orUndo (inner s) (·.setConsumed slot prior)) p r := by
  rintro s rfl sound
  have sized : slot < s.regs.consumed.size := sound.fitted.consumed ▸ bound
  simp only [MatchState.consumed_ok sized, MatchState.setConsumed_ok begun sized, bind, Except.bind]
  refine (keeps _ rfl (sound.putConsumed slot begun)).orUndo
    fun s' failed => ⟨_, MatchState.setConsumed_ok _ ?_⟩
  rw [restores failed]
  simpa [Registers.putConsumed] using sized

theorem group (tidies : Tidies c.g c.t polls visit) {slot : Nat} {branches : List NodeId}
    (bound : slot < c.g.slots)
    (keeps : c.Keeps (firstBranch visit branches p) p (r.putConsumed slot (some p))) :
    c.Keeps (Attempt.group visit slot branches p) p r := by
  unfold Attempt.group
  exact begin bound (firstBranch_restores tidies) keeps

theorem groupEnd_some (tidies : Tidies c.g c.t polls visit) {slot n begun : Nat}
    (inside : n ≤ c.g.captures) (kept : r.consumed[slot]? = some (some begun))
    (valid : c.t.isBoundary begun = true) (later : c.start ≤ begun)
    (reaches : c.t.Reaches begun p)
    (keeps : c.Keeps (visit next p) p (r.putGroup n (some begun) (some p))) :
    c.Keeps (Attempt.groupEnd visit slot (some n) next p) p r := by
  rintro s rfl sound
  have starts : n < s.regs.starts.size := sound.fitted.starts ▸ Nat.lt_succ_of_le inside
  have ends : n < s.regs.ends.size := sound.fitted.ends ▸ Nat.lt_succ_of_le inside
  simp only [Attempt.groupEnd, MatchState.groupStart_success.mpr (Array.getElem?_eq_getElem starts),
    MatchState.groupStop_success.mpr (Array.getElem?_eq_getElem ends),
    MatchState.consumed_success.mpr kept,
    MatchState.setGroup_ok (some begun) (some p) starts ends, bind, Except.bind]
  refine (keeps _ rfl (sound.putGroup inside valid later reaches)).orUndo
    fun s' failed => ⟨_, MatchState.setGroup_ok _ _ ?_ ?_⟩
  · rw [(tidies failed).restored rfl]
    simpa [Registers.putGroup] using starts
  · rw [(tidies failed).restored rfl]
    simpa [Registers.putGroup] using ends

theorem iterate (tidies : Tidies c.g c.t polls visit) {l : Loop} (bound : l.slot < c.g.slots)
    (body : c.Keeps (visit l.body p) p (r.putConsumed l.slot (some p))) :
    c.Keeps (Attempt.iterate visit l p) p r := by
  apply proceed
  apply begin bound _ body
  intro s s' failed
  exact (tidies failed).restored rfl

theorem repeatStep (tidies : Tidies c.g c.t polls visit) {l : Loop} (bound : l.slot < c.g.slots)
    (body : c.Keeps (visit l.body p) p (r.putConsumed l.slot (some p)))
    (next : c.Keeps (visit l.next p) p r) : c.Keeps (Attempt.repeatStep visit l p) p r := by
  rintro s rfl sound
  have counted : l.slot < s.regs.counts.size := sound.fitted.counts ▸ bound
  have again (n : Nat) : c.Keeps (fun s => if belowMax n l.max then
      Attempt.iterate visit l p s else return (none, s)) p s.regs := by
    intro s' same sound'
    dsimp only
    split
    · exact iterate tidies bound body s' same sound'
    · trivial
  simp only [Attempt.repeatStep, MatchState.count_success.mpr (Array.getElem?_eq_getElem counted),
    bind, Except.bind]
  split
  · refine (again _ s rfl sound).orElse fun s' failed => ?_
    have restored : s'.regs = s.regs := by
      split at failed
      · have tidy := iterate_tidy (F := fun _ => False) tidies (by simp) (by simp) failed
        exact tidy.restored rfl
      · cases failed; rfl
    exact guarded next s' restored sound
  · split
    · refine (next s rfl sound).orElse fun s' failed => ?_
      exact again _ s' ((tidies failed).restored rfl) sound
    · exact again _ s rfl sound

theorem loop (tidies : Tidies c.g c.t polls visit) {l : Loop} (bound : l.slot < c.g.slots)
    (keeps : c.Keeps (Attempt.repeatStep visit l p) p
      ((r.putCount l.slot 0).putConsumed l.slot none)) :
    c.Keeps (Attempt.loop visit l p) p r := by
  rintro s rfl sound
  have sized : l.slot < s.regs.consumed.size := sound.fitted.consumed ▸ bound
  have counted : l.slot < s.regs.counts.size := sound.fitted.counts ▸ bound
  simp only [Attempt.loop, MatchState.count_success.mpr (Array.getElem?_eq_getElem counted),
    MatchState.consumed_ok sized, MatchState.setCount_ok 0 counted, bind, Except.bind]
  rw [MatchState.setConsumed_ok none (by exact sized)]
  refine (keeps _ rfl ((sound.putCount l.slot 0).putConsumed l.slot none)).orUndo
    fun s' failed => ?_
  have same := repeatStep_restores tidies failed
  have counted' : l.slot < s'.regs.counts.size := by
    rw [same]; simpa [Registers.putConsumed, Registers.putCount] using counted
  have sized' : l.slot < s'.regs.consumed.size := by
    rw [same]; simpa [Registers.putConsumed, Registers.putCount] using sized
  rw [MatchState.setCount_ok _ counted']
  exact ⟨_, MatchState.setConsumed_ok _ sized'⟩

theorem loopTail (tidies : Tidies c.g c.t polls visit) {l : Loop} (bound : l.slot < c.g.slots)
    (next : c.Keeps (visit l.next p) p r)
    (step : r.consumed[l.slot]? ≠ some (some p) → ∀ n,
      c.Keeps (Attempt.repeatStep visit l p) p (r.putCount l.slot n)) :
    c.Keeps (Attempt.loopTail visit l p) p r := by
  rintro s rfl sound
  have sized : l.slot < s.regs.consumed.size := sound.fitted.consumed ▸ bound
  have counted : l.slot < s.regs.counts.size := sound.fitted.counts ▸ bound
  simp only [Attempt.loopTail, MatchState.consumed_ok sized,
    MatchState.count_success.mpr (Array.getElem?_eq_getElem counted),
    MatchState.setCount_ok _ counted, bind, Except.bind]
  split
  · exact next s rfl sound
  · next moved =>
    have moved : s.regs.consumed[l.slot]? ≠ some (some p) := by
      simpa [Array.getElem?_eq_getElem sized] using moved
    refine (step moved _ _ rfl (sound.putCount l.slot _)).orUndo
      fun s' failed => ⟨_, MatchState.setCount_ok _ ?_⟩
    rw [repeatStep_restores tidies failed]
    simpa [Registers.putCount] using counted

theorem save_ok {s : MatchState} {inner : Frame} (sound : c.Sound p s.regs)
    (captures : inner.captures.stop ≤ c.g.captures + 1) (slots : inner.slots.stop ≤ c.g.slots) :
    s.save inner = .ok s.regs := by
  apply MatchState.save_ok
  · rw [sound.fitted.starts]
    exact captures
  · rw [sound.fitted.consumed]
    exact slots

theorem atomic (tidies : Tidies c.g c.t polls visit) {slot : Nat} {branches : List NodeId}
    {inner : Frame} (enclosed : ∀ b ∈ branches, c.g.Confined b inner) (bound : slot < c.g.slots)
    (captures : inner.captures.stop ≤ c.g.captures + 1) (slots : inner.slots.stop ≤ c.g.slots)
    (keeps : c.Keeps (firstBranch visit branches p) p (r.putConsumed slot (some p)))
    (after : ∀ q r', c.t.Reaches p q → (r.putConsumed slot (some p)).AgreeOutside inner r' →
      c.Keeps (visit next q) q r') :
    c.Keeps (Attempt.atomic visit slot branches inner next p) p r := by
  rintro s rfl sound
  have sized : slot < s.regs.consumed.size := sound.fitted.consumed ▸ bound
  have begun := sound.putConsumed slot (some p)
  have found := keeps { s with regs := s.regs.putConsumed slot (some p) } rfl begun
  simp only [Attempt.atomic, MatchState.consumed_ok sized, save_ok sound captures slots,
    MatchState.setConsumed_ok (some p) sized, bind, Except.bind]
  cases answer : firstBranch visit branches p
      { s with regs := s.regs.putConsumed slot (some p) } with
  | error e =>
    rw [answer] at found
    exact found
  | ok committed =>
    rw [answer] at found
    obtain ⟨_ | q, s'⟩ := committed
    · have sized' : slot < s'.regs.consumed.size := by
        rw [firstBranch_restores tidies answer]
        simpa [Registers.putConsumed] using sized
      simp only [MatchState.setConsumed_ok _ sized']
      trivial
    · have tidy := committed_tidy tidies enclosed answer
      have there := after q s'.regs (tidy.forward q rfl) (tidy.framed inner rfl) s' rfl found
      refine there.orUndo fun s'' failed => ⟨_, MatchState.setConsumed_ok _ ?_⟩
      have shape := tidy.shape.trans (tidies failed).shape
      exact Yields.restoreFrame_sized inner s.regs (shape.consumed.trans begun.fitted.consumed)
        bound

theorem lookAhead (tidies : Tidies c.g c.t polls visit) {slot : Nat} {negative : Bool}
    {branches : List NodeId} {inner : Frame} (enclosed : ∀ b ∈ branches, c.g.Confined b inner)
    (bound : slot < c.g.slots) (captures : inner.captures.stop ≤ c.g.captures + 1)
    (slots : inner.slots.stop ≤ c.g.slots)
    (ahead : ∀ n, inner.captures.contains n = true → c.ahead n)
    (keeps : c.Keeps (firstBranch visit branches p) p (r.putConsumed slot (some p)))
    (after : ∀ r', (r.putConsumed slot (some p)).AgreeOutside inner r' →
      c.Keeps (visit next p) p r') :
    c.Keeps (Attempt.lookAhead visit slot negative branches inner next p) p r := by
  rintro s rfl sound
  have sized : slot < s.regs.consumed.size := sound.fitted.consumed ▸ bound
  have begun := sound.putConsumed slot (some p)
  have found := keeps { s with regs := s.regs.putConsumed slot (some p) } rfl begun
  simp only [Attempt.lookAhead, MatchState.consumed_ok sized, save_ok sound captures slots,
    MatchState.setConsumed_ok (some p) sized, bind, Except.bind]
  cases answer : firstBranch visit branches p
      { s with regs := s.regs.putConsumed slot (some p) } with
  | error e =>
    rw [answer] at found
    exact found
  | ok committed =>
    rw [answer] at found
    obtain ⟨stop, s'⟩ := committed
    have tidy := committed_tidy tidies enclosed answer
    have framed := tidy.framed inner rfl
    have sound' : c.Sound p s'.regs := by
      cases stop with
      | none => exact (tidy.restored rfl) ▸ begun
      | some q => exact begun.back found framed ahead
    have there : c.Endures (if stop.isSome != negative && !s'.isHalted then visit next p s'
        else return (none, s')) := guarded (after s'.regs framed) s' rfl sound'
    refine there.orUndo fun s'' failed => ⟨_, MatchState.setConsumed_ok _ ?_⟩
    have further := guarded_tidy (F := fun _ => False) tidies (by simp) failed
    have shape := tidy.shape.trans further.shape
    exact Yields.restoreFrame_sized inner s.regs (shape.consumed.trans begun.fitted.consumed) bound

theorem leafLoopGreedy (tidies : Tidies c.g c.t polls visit) {leaf : Attempt.LeafEnd} {min : Nat}
    {max : Option Nat} {ends : List Nat}
    (reached : Attempt.leafEnds leaf (Attempt.iterationsWithin c.t p max) p = .ok ends)
    (keeps : ∀ q ∈ ends, c.Keeps (visit next q) p r) :
    c.Keeps (Attempt.leafLoopGreedy visit c.t leaf min max next p) p r := by
  intro s same sound
  simp only [Attempt.leafLoopGreedy, reached, bind, Except.bind]
  refine firstSuccess tidies (fun choice member => ?_) s same sound
  obtain ⟨q, later, rfl⟩ := List.mem_map.mp member
  exact keeps q (List.mem_of_mem_drop (List.mem_reverse.mp later))

theorem leafLoopReluctant (tidies : Tidies c.g c.t polls visit) {leaf : Attempt.LeafEnd}
    (ok : ∀ {p}, c.t.isBoundary p = true → ∃ found, leaf p = .ok found)
    (reaches : ∀ {p q}, leaf p = .ok (some q) → c.t.Reaches p q) {n required : Nat}
    (keeps : ∀ q, c.t.Reaches p q → c.Keeps (visit next q) q r) :
    c.Keeps (Attempt.leafLoopReluctant visit leaf next n required p) p r := by
  induction n generalizing required p with
  | zero =>
    change c.Keeps (fun s => Attempt.leafLoopReluctant visit leaf next 0 required p s) p r
    unfold Attempt.leafLoopReluctant
    apply proceed
    intro s same sound
    exact (guarded (keeps p (.refl c.t p)) s same sound).orElse fun _ _ => trivial
  | succ n ih =>
    change c.Keeps (fun s => Attempt.leafLoopReluctant visit leaf next (n + 1) required p s) p r
    unfold Attempt.leafLoopReluctant
    apply proceed
    intro s same sound
    refine (guarded (keeps p (.refl c.t p)) s same sound).orElse fun s' failed => ?_
    have tidy := guarded_tidy (F := fun _ => False) tidies (by simp) failed
    obtain ⟨found, ended⟩ := ok sound.boundary
    simp only [ended, bind, Except.bind]
    cases found with
    | none => trivial
    | some stop =>
      have further := reaches ended
      dsimp only
      split
      · exact ih (fun q reaches => keeps q (further.trans reaches)) s'
          ((tidy.restored rfl).trans same) (sound.onward further)
      · trivial

end Keeps

end Course

end BacktrackRegex
