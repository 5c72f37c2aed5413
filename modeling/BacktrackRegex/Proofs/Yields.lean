import BacktrackRegex.Proofs.Readiness

/-! What attempts yield. From ready states with the same registers an attempt yields the same way,
or none, unless the bound on nesting stops it. Each rule yields what the visits it makes yield, put
together as the rule says. -/
namespace BacktrackRegex

/-- An attempt led to the given way, or to none, if not too deep a nesting stopped it. -/
def Meets (x : Attempted) (way? : Option Way) : Prop :=
  match x with
  | .ok (stop, s) => stop.map (·, s.regs.held) = way?
  | .error e => e = .nesting

def Yields (g : Graph) (t : Text) (origin : Nat) (attempt : MatchState → Attempted) (r : Registers)
    (way? : Option Way) : Prop :=
  ∀ s, s.regs = r → Ready g t origin s → Meets (attempt s) way?

theorem Meets.orElse {a : Attempted} {other : MatchState → Attempted} {way? other? : Option Way}
    (first : Meets a way?) (rest : ∀ s, a = .ok (none, s) → Meets (other s) other?) :
    Meets (a.orElse other) (way?.or other?) := by
  match a, first with
  | .error e, first => exact first
  | .ok (some q, s), first => cases first; exact rfl
  | .ok (none, s), first => cases first; exact rest s rfl

theorem Meets.orUndo {a : Attempted} {undo : MatchState → Except Fault MatchState}
    {way? : Option Way} (inner : Meets a way?)
    (undone : ∀ s, a = .ok (none, s) → ∃ s', undo s = .ok s') : Meets (a.orUndo undo) way? := by
  match a, inner with
  | .error e, inner => exact inner
  | .ok (some q, s), inner => exact inner
  | .ok (none, s), inner =>
    obtain ⟨s', same⟩ := undone s rfl
    cases inner
    simp [Attempted.orUndo, Meets, same, bind, Except.bind, pure, Except.pure]

namespace MatchState

theorem consumed_ok {s : MatchState} {slot : Nat} (bound : slot < s.regs.consumed.size) :
    s.consumed slot = .ok s.regs.consumed[slot] := by
  rw [consumed_success, Array.getElem?_eq_getElem bound]

theorem setConsumed_ok {s : MatchState} {slot : Nat} (p : Option Nat)
    (bound : slot < s.regs.consumed.size) :
    s.setConsumed slot p = .ok { s with regs := s.regs.putConsumed slot p } := by
  rw [setConsumed_success]
  exact ⟨bound, rfl⟩

theorem setCount_ok {s : MatchState} {slot : Nat} (n : Nat) (bound : slot < s.regs.counts.size) :
    s.setCount slot n = .ok { s with regs := s.regs.putCount slot n } := by
  rw [setCount_success]
  exact ⟨bound, rfl⟩

theorem setGroup_ok {s : MatchState} {n : Nat} (start stop : Option Nat)
    (starts : n < s.regs.starts.size) (ends : n < s.regs.ends.size) :
    s.setGroup n start stop = .ok { s with regs := s.regs.putGroup n start stop } := by
  rw [setGroup_success]
  exact ⟨starts, ends, rfl⟩

end MatchState

namespace Yields

variable {g : Graph} {t : Text} {origin : Nat} {visit : Visit} {polls : Nat} {r : Registers}

theorem failure : Yields g t origin (fun s => return (none, s)) r none := by
  intro s _ _
  rfl

theorem guarded {c : Prop} [Decidable c] {next p : Nat} {way? : Option Way}
    (after : c → Yields g t origin (visit next p) r way?) :
    Yields g t origin (fun s => if c then visit next p s else return (none, s)) r
      (if c then way? else none) := by
  intro s same ready
  split
  · next holds => exact after holds s same ready
  · rfl

theorem firstSuccess_nil (visit : Visit) : Yields g t origin (firstSuccess visit []) r none := by
  intro s _ _
  rfl

theorem firstSuccess_cons (tidies : Tidies g t polls visit) {id p : Nat}
    {rest : List (NodeId × Nat)} {way? others? : Option Way}
    (first : Yields g t origin (visit id p) r way?)
    (later : Yields g t origin (firstSuccess visit rest) r others?) :
    Yields g t origin (firstSuccess visit ((id, p) :: rest)) r (way?.or others?) := by
  intro s same ready
  obtain ⟨s', polled, kept, ready'⟩ := ready.proceed
  unfold firstSuccess
  rw [polled]
  refine (first s' (kept.trans same) ready').orElse fun s'' failed => ?_
  have tidy := tidies failed
  exact later s'' ((tidy.restored rfl).trans (kept.trans same)) (ready'.afterFailure tidy)

theorem setConsumed {slot : Nat} {begun : Option Nat} {inner : MatchState → Attempted}
    {way? : Option Way} (bound : slot < g.slots)
    (tidy : ∀ {s s'}, inner s = .ok (none, s') → s'.regs = s.regs)
    (yields : Yields g t origin inner (r.putConsumed slot begun) way?) :
    Yields g t origin (fun s => do
      let prior ← s.consumed slot
      let s ← s.setConsumed slot begun
      Attempted.orUndo (inner s) (·.setConsumed slot prior)) r way? := by
  rintro s rfl ready
  have sized : slot < s.regs.consumed.size := ready.fitted.consumed ▸ bound
  simp only [MatchState.consumed_ok sized, MatchState.setConsumed_ok begun sized, bind, Except.bind]
  refine (yields _ rfl (ready.write (Registers.sameShape_putConsumed _ _ _) ready.valid)).orUndo
    fun s' failed => ⟨_, MatchState.setConsumed_ok _ ?_⟩
  rw [tidy failed]
  simpa [Registers.putConsumed] using sized

theorem group (tidies : Tidies g t polls visit) {slot p : Nat} {branches : List NodeId}
    {way? : Option Way} (bound : slot < g.slots)
    (yields : Yields g t origin (firstBranch visit branches p) (r.putConsumed slot (some p)) way?) :
    Yields g t origin (Attempt.group visit slot branches p) r way? := by
  unfold Attempt.group
  exact setConsumed bound (firstBranch_restores tidies) yields

theorem iterate (tidies : Tidies g t polls visit) {l : Loop} {p : Nat} {way? : Option Way}
    (bound : l.slot < g.slots)
    (yields : Yields g t origin (visit l.body p) (r.putConsumed l.slot (some p)) way?) :
    Yields g t origin (Attempt.iterate visit l p) r way? := by
  intro s same ready
  obtain ⟨s', polled, kept, ready'⟩ := ready.proceed
  unfold Attempt.iterate
  rw [polled]
  exact setConsumed bound (fun failed => (tidies failed).restored rfl) yields s' (kept.trans same)
    ready'

theorem groupEnd_some (tidies : Tidies g t polls visit) {slot n next start p : Nat}
    {way? : Option Way} (bound : n ≤ g.captures) (begun : r.consumed[slot]? = some (some start))
    (valid : t.isBoundary start = true) (reaches : t.Reaches start p)
    (yields : Yields g t origin (visit next p) (r.putGroup n (some start) (some p)) way?) :
    Yields g t origin (Attempt.groupEnd visit slot (some n) next p) r way? := by
  rintro s rfl ready
  have starts : n < s.regs.starts.size := ready.fitted.starts ▸ Nat.lt_succ_of_le bound
  have ends : n < s.regs.ends.size := ready.fitted.ends ▸ Nat.lt_succ_of_le bound
  simp only [Attempt.groupEnd, MatchState.groupStart_success.mpr (Array.getElem?_eq_getElem starts),
    MatchState.groupStop_success.mpr (Array.getElem?_eq_getElem ends),
    MatchState.consumed_success.mpr begun,
    MatchState.setGroup_ok (some start) (some p) starts ends, bind, Except.bind]
  refine (yields _ rfl (ready.write (Registers.sameShape_putGroup _ _ _ _) ?_)).orUndo
    fun s' failed => ⟨_, MatchState.setGroup_ok _ _ ?_ ?_⟩
  · rw [Registers.held_putGroup]
    exact ready.valid.set valid reaches
  · rw [(tidies failed).restored rfl]
    simpa [Registers.putGroup] using starts
  · rw [(tidies failed).restored rfl]
    simpa [Registers.putGroup] using ends

theorem repeatStep (tidies : Tidies g t polls visit) {l : Loop} {n p : Nat}
    {again? stop? : Option Way} (bound : l.slot < g.slots) (count : r.counts[l.slot]? = some n)
    (body : belowMax n l.max = true →
      Yields g t origin (visit l.body p) (r.putConsumed l.slot (some p)) again?)
    (next : l.min ≤ n → Yields g t origin (visit l.next p) r stop?) :
    Yields g t origin (Attempt.repeatStep visit l p) r
      (let again? := if belowMax n l.max then again? else none
      let stop? := if l.min ≤ n then stop? else none
      if l.greedy then again?.or stop? else stop?.or again?) := by
  rintro s rfl ready
  have again : Yields g t origin (fun s => if belowMax n l.max then Attempt.iterate visit l p s
      else return (none, s)) s.regs (if belowMax n l.max then again? else none) := by
    intro s' same ready'
    dsimp only
    split
    · next below => exact iterate tidies bound (body below) s' same ready'
    · rfl
  simp only [Attempt.repeatStep, MatchState.count_success.mpr count, bind, Except.bind]
  split
  · refine (again s rfl ready).orElse fun s' failed => ?_
    have restored : s'.regs = s.regs ∧ Ready g t origin s' := by
      split at failed
      · have tidy := iterate_tidy (F := fun _ => False) tidies (by simp) (by simp) failed
        exact ⟨tidy.restored rfl, ready.afterFailure tidy⟩
      · cases failed; exact ⟨rfl, ready⟩
    have running : s'.isHalted = false := restored.2.running
    simp only [running, Bool.not_false, Bool.and_true, decide_eq_true_eq]
    exact guarded next s' restored.1 restored.2
  · split
    · next enough =>
      refine (next enough s rfl ready).orElse fun s' failed => ?_
      exact again s' ((tidies failed).restored rfl) (ready.afterFailure (tidies failed))
    · rw [Option.none_or]
      exact again s rfl ready

theorem loop (tidies : Tidies g t polls visit) {l : Loop} {p : Nat} {way? : Option Way}
    (bound : l.slot < g.slots)
    (yields : Yields g t origin (Attempt.repeatStep visit l p)
      ((r.putCount l.slot 0).putConsumed l.slot none) way?) :
    Yields g t origin (Attempt.loop visit l p) r way? := by
  rintro s rfl ready
  have sized : l.slot < s.regs.consumed.size := ready.fitted.consumed ▸ bound
  have counted : l.slot < s.regs.counts.size := ready.fitted.counts ▸ bound
  have shape := (Registers.sameShape_putCount s.regs l.slot 0).trans
    (Registers.sameShape_putConsumed (s.regs.putCount l.slot 0) l.slot none)
  simp only [Attempt.loop, MatchState.count_success.mpr (Array.getElem?_eq_getElem counted),
    MatchState.consumed_ok sized, MatchState.setCount_ok 0 counted, bind, Except.bind]
  rw [MatchState.setConsumed_ok none (by exact sized)]
  refine (yields _ rfl (ready.write shape ready.valid)).orUndo fun s' failed => ?_
  have same := repeatStep_restores tidies failed
  have counted' : l.slot < s'.regs.counts.size := by
    rw [same]; simpa [Registers.putConsumed, Registers.putCount] using counted
  have sized' : l.slot < s'.regs.consumed.size := by
    rw [same]; simpa [Registers.putConsumed, Registers.putCount] using sized
  rw [MatchState.setCount_ok _ counted']
  exact ⟨_, MatchState.setConsumed_ok _ sized'⟩

theorem loopTail_here {l : Loop} {p : Nat} {way? : Option Way}
    (begun : r.consumed[l.slot]? = some (some p))
    (yields : Yields g t origin (visit l.next p) r way?) :
    Yields g t origin (Attempt.loopTail visit l p) r way? := by
  rintro s rfl ready
  simp only [Attempt.loopTail, MatchState.consumed_success.mpr begun, bind, Except.bind, if_true]
  exact yields s rfl ready

theorem loopTail_later (tidies : Tidies g t polls visit) {l : Loop} {start n p : Nat}
    {way? : Option Way} (bound : l.slot < g.slots)
    (begun : r.consumed[l.slot]? = some (some start)) (moved : start ≠ p)
    (count : r.counts[l.slot]? = some n)
    (yields : Yields g t origin (Attempt.repeatStep visit l p) (r.putCount l.slot (Word.next n))
      way?) : Yields g t origin (Attempt.loopTail visit l p) r way? := by
  rintro s rfl ready
  have counted : l.slot < s.regs.counts.size := ready.fitted.counts ▸ bound
  simp only [Attempt.loopTail, MatchState.consumed_success.mpr begun,
    MatchState.count_success.mpr count, MatchState.setCount_ok _ counted, Option.some.injEq, moved,
    if_false, bind, Except.bind]
  refine (yields _ rfl (ready.write (Registers.sameShape_putCount _ _ _) ready.valid)).orUndo
    fun s' failed => ⟨_, MatchState.setCount_ok _ ?_⟩
  rw [repeatStep_restores tidies failed]
  simpa [Registers.putCount] using counted

theorem save_ok {s : MatchState} {inner : Frame} (ready : Ready g t origin s)
    (captures : inner.captures.stop ≤ g.captures + 1) (slots : inner.slots.stop ≤ g.slots) :
    s.save inner = .ok s.regs := by
  apply MatchState.save_ok
  · rw [ready.fitted.starts]
    exact captures
  · rw [ready.fitted.consumed]
    exact slots

theorem restoreFrame_sized {s : MatchState} {slot : Nat} (inner : Frame) (saved : Registers)
    (sized : s.regs.consumed.size = g.slots) (bound : slot < g.slots) :
    slot < (s.restoreFrame inner saved).regs.consumed.size := by
  simp only [MatchState.restoreFrame, Registers.restoreFrame, Interval.overlay_size, sized, bound]

theorem atomic (tidies : Tidies g t polls visit) {slot p next : Nat} {branches : List NodeId}
    {inner : Frame} {first? way? : Option Way} (enclosed : ∀ b ∈ branches, g.Confined b inner)
    (bound : slot < g.slots) (captures : inner.captures.stop ≤ g.captures + 1)
    (slots : inner.slots.stop ≤ g.slots)
    (valid : r.held.Valid t → ∀ way, first? = some way → way.2.Valid t)
    (yields : Yields g t origin (firstBranch visit branches p) (r.putConsumed slot (some p)) first?)
    (missed : first? = none → way? = none)
    (after : ∀ q r', first? = some (q, r'.held) → t.Reaches p q →
      (r.putConsumed slot (some p)).AgreeOutside inner r' →
      Yields g t origin (visit next q) r' way?) :
    Yields g t origin (Attempt.atomic visit slot branches inner next p) r way? := by
  rintro s rfl ready
  have sized : slot < s.regs.consumed.size := ready.fitted.consumed ▸ bound
  have begun := ready.write (Registers.sameShape_putConsumed s.regs slot (some p)) ready.valid
  have found := yields _ rfl begun
  simp only [Attempt.atomic, MatchState.consumed_ok sized, save_ok ready captures slots,
    MatchState.setConsumed_ok (some p) sized, bind, Except.bind]
  match answer : firstBranch visit branches p { s with regs := s.regs.putConsumed slot (some p) },
    found with
  | .error e, found => exact found
  | .ok (none, s'), found =>
    have sized' : slot < s'.regs.consumed.size := by
      rw [firstBranch_restores tidies answer]
      simpa [Registers.putConsumed] using sized
    simp only [MatchState.setConsumed_ok _ sized']
    cases missed (by cases found; rfl)
    rfl
  | .ok (some q, s'), found =>
    have tidy := committed_tidy tidies enclosed answer
    have first : first? = some (q, s'.regs.held) := by cases found; rfl
    have there := after q s'.regs first (tidy.forward q rfl) (tidy.framed inner rfl) s' rfl
      (begun.after tidy (valid ready.valid _ first))
    refine there.orUndo fun s'' failed => ⟨_, MatchState.setConsumed_ok _ ?_⟩
    have shape := tidy.shape.trans (tidies failed).shape
    exact restoreFrame_sized inner s.regs (shape.consumed.trans begun.fitted.consumed) bound

theorem lookAhead (tidies : Tidies g t polls visit) {slot p next : Nat} {negative : Bool}
    {branches : List NodeId} {inner : Frame} {first? way? : Option Way}
    (enclosed : ∀ b ∈ branches, g.Confined b inner) (bound : slot < g.slots)
    (captures : inner.captures.stop ≤ g.captures + 1) (slots : inner.slots.stop ≤ g.slots)
    (valid : r.held.Valid t → ∀ way, first? = some way → way.2.Valid t)
    (yields : Yields g t origin (firstBranch visit branches p) (r.putConsumed slot (some p)) first?)
    (after : first?.isSome != negative → ∀ r', r'.held = first?.elim r.held (·.2) →
      (r.putConsumed slot (some p)).AgreeOutside inner r' →
      Yields g t origin (visit next p) r' way?) :
    Yields g t origin (Attempt.lookAhead visit slot negative branches inner next p) r
      (if first?.isSome != negative then way? else none) := by
  rintro s rfl ready
  have sized : slot < s.regs.consumed.size := ready.fitted.consumed ▸ bound
  have begun := ready.write (Registers.sameShape_putConsumed s.regs slot (some p)) ready.valid
  have found := yields _ rfl begun
  simp only [Attempt.lookAhead, MatchState.consumed_ok sized, save_ok ready captures slots,
    MatchState.setConsumed_ok (some p) sized, bind, Except.bind]
  match answer : firstBranch visit branches p { s with regs := s.regs.putConsumed slot (some p) },
    found with
  | .error e, found => exact found
  | .ok (stop, s'), found =>
    have tidy := committed_tidy tidies enclosed answer
    have ended : stop.isSome = first?.isSome := by cases found; cases stop <;> rfl
    have held : s'.regs.held = first?.elim s.regs.held (·.2) := by
      cases found
      cases stop with
      | none =>
        have restored := congrArg Registers.held (tidy.restored rfl)
        exact restored
      | some q => rfl
    have ready' : Ready g t origin s' := by
      refine begun.after tidy ?_
      rw [held]
      cases h : first? with
      | none => exact ready.valid
      | some way => exact valid ready.valid way h
    have running : s'.isHalted = false := ready'.running
    simp only [ended, running, Bool.not_false, Bool.and_true]
    have there := guarded (fun which => after which s'.regs held (tidy.framed inner rfl)) s' rfl
      ready'
    refine Meets.orUndo there fun s'' failed => ⟨_, MatchState.setConsumed_ok _ ?_⟩
    have after := guarded_tidy (F := fun _ => False) tidies (by simp) failed
    have shape := tidy.shape.trans after.shape
    exact restoreFrame_sized inner s.regs (shape.consumed.trans begun.fitted.consumed) bound

theorem firstSuccess_map (tidies : Tidies g t polls visit) {next : Nat} {way? : Nat → Option Way}
    {ends : List Nat} (yields : ∀ q ∈ ends, Yields g t origin (visit next q) r (way? q)) :
    Yields g t origin (firstSuccess visit (ends.map (next, ·))) r (ends.findSome? way?) := by
  induction ends with
  | nil => exact firstSuccess_nil visit
  | cons q ends ih =>
    rw [findSome?_cons_or]
    exact firstSuccess_cons tidies (yields q List.mem_cons_self)
      (ih fun p member => yields p (List.mem_cons_of_mem _ member))

theorem leafLoopGreedy (tidies : Tidies g t polls visit) {leaf : Attempt.LeafEnd} {min p next : Nat}
    {max : Option Nat} {way? : Nat → Option Way} {ends : List Nat}
    (reached : Attempt.leafEnds leaf (Attempt.iterationsWithin t p max) p = .ok ends)
    (yields : ∀ q ∈ ends, Yields g t origin (visit next q) r (way? q)) :
    Yields g t origin (Attempt.leafLoopGreedy visit t leaf min max next p) r
      ((ends.drop min).reverse.findSome? way?) := by
  intro s same ready
  simp only [Attempt.leafLoopGreedy, reached, bind, Except.bind]
  exact firstSuccess_map tidies
    (fun q member => yields q (List.mem_of_mem_drop (List.mem_reverse.mp member))) s same ready

theorem stayOr (tidies : Tidies g t polls visit) {required p next : Nat} {way? : Nat → Option Way}
    {later : List Nat} (stays : Yields g t origin (visit next p) r (way? p))
    {other : MatchState → Attempted}
    (others : Yields g t origin other r ((later.drop (required - 1)).findSome? way?)) :
    Yields g t origin (fun s => Attempted.orElse
      (if required = 0 then visit next p s else return (none, s)) other) r
      (((p :: later).drop required).findSome? way?) := by
  intro s same ready
  have split : ((p :: later).drop required).findSome? way? =
      (if required = 0 then way? p else none).or
        ((later.drop (required - 1)).findSome? way?) := by
    cases required with
    | zero => simp [findSome?_cons_or]
    | succ k => simp
  rw [split]
  refine (guarded (fun _ => stays) s same ready).orElse fun s' failed => ?_
  have tidy := guarded_tidy (F := fun _ => False) tidies (by simp) failed
  exact others s' ((tidy.restored rfl).trans same) (ready.afterFailure tidy)

theorem leafLoopReluctant (tidies : Tidies g t polls visit) {leaf : Attempt.LeafEnd}
    {n required p next : Nat} {way? : Nat → Option Way} {ends : List Nat}
    (reached : Attempt.leafEnds leaf n p = .ok ends)
    (yields : ∀ q ∈ ends, Yields g t origin (visit next q) r (way? q)) :
    Yields g t origin (Attempt.leafLoopReluctant visit leaf next n required p) r
      ((ends.drop required).findSome? way?) := by
  have last {p required : Nat} (stays : Yields g t origin (visit next p) r (way? p))
      {other : MatchState → Attempted} (fails : Yields g t origin other r none) :
      Yields g t origin (fun s => Attempted.orElse
        (if required = 0 then visit next p s else return (none, s)) other) r
        (([p].drop required).findSome? way?) :=
    stayOr tidies stays (by simpa using fails)
  induction n generalizing required p ends with
  | zero =>
    intro s same ready
    obtain ⟨s', polled, kept, ready'⟩ := ready.proceed
    cases reached
    unfold Attempt.leafLoopReluctant
    rw [polled]
    refine last (yields p List.mem_cons_self) ?_ s' (kept.trans same) ready'
    exact fun _ _ _ => rfl
  | succ n ih =>
    intro s same ready
    obtain ⟨s', polled, kept, ready'⟩ := ready.proceed
    unfold Attempt.leafLoopReluctant
    rw [polled]
    obtain ⟨found, ended, reached⟩ := bind_success reached
    cases found with
    | none =>
      cases reached
      refine last (yields p List.mem_cons_self) ?_ s' (kept.trans same) ready'
      simp only [ended, bind, Except.bind]
      exact fun _ _ _ => rfl
    | some stop =>
      dsimp only at reached
      split at reached
      · next moved =>
        obtain ⟨later, further, all⟩ := bind_success reached
        cases pure_success all
        refine stayOr tidies (yields p List.mem_cons_self) ?_ s' (kept.trans same) ready'
        simp only [ended, moved, if_true, bind, Except.bind]
        exact ih further fun q member => yields q (List.mem_cons_of_mem _ member)
      · next stuck =>
        cases reached
        refine last (yields p List.mem_cons_self) ?_ s' (kept.trans same) ready'
        simp only [ended, stuck, if_false, bind, Except.bind]
        exact fun _ _ _ => rfl

end Yields

end BacktrackRegex
