import BacktrackRegex.Proofs.Regions
import BacktrackRegex.Proofs.Spending

/-! Two runs side by side. They begin with the same registers and with budgets that are linked in
some way. If a link lasts from poll to poll, the rules carry it from visit to visit: whatever the
second run leads to, the first one leads to as well, as long as the second spends its budget as is
asked of it. -/
namespace BacktrackRegex

structure Budget.Lasts (B : Budget → Budget → Prop) (E : Budget → Prop) : Prop where
  halted : ∀ {b b'}, B b b' → b.isHalted = b'.isHalted
  before : ∀ {b' c' may}, b'.poll = (may, c') → E c' → E b'
  poll : ∀ {b b' c' may}, B b b' → b'.poll = (may, c') → E c' → ∃ c, b.poll = (may, c) ∧ B c c'

structure Budget.Enters (B I : Budget → Budget → Prop) (E : Budget → Prop) : Prop where
  before : ∀ {b' c' may}, b'.enter = (may, c') → E c' → E b'
  refused : ∀ {b b' c'}, B b b' → b'.enter = (false, c') → E c' →
    ∃ c, b.enter = (false, c) ∧ B c c'
  granted : ∀ {b b' c'}, B b b' → b'.enter = (true, c') → E c' → ∃ c, b.enter = (true, c) ∧ I c c'
  leave : ∀ {b b'}, I b b' → B b.leave b'.leave
  left : ∀ {b'}, E b'.leave → E b'

structure MatchState.Linked (B : Budget → Budget → Prop) (s s' : MatchState) : Prop where
  regs : s.regs = s'.regs
  budget : B s.budget s'.budget

/-- Whatever the second attempt leads to, the first one leads to from a linked state, if in the end
the budget is spent as `E` asks; then it was so in the beginning. -/
structure Carries (B : Budget → Budget → Prop) (E : Budget → Prop)
    (attempt attempt' : MatchState → Attempted) : Prop where
  before : ∀ {s' r u'}, attempt' s' = .ok (r, u') → E u'.budget → E s'.budget
  again : ∀ {s s' r u'}, s.Linked B s' → attempt' s' = .ok (r, u') → E u'.budget →
    ∃ u, attempt s = .ok (r, u) ∧ u.Linked B u'

def Attempt.opened (rule : MatchState → Attempted) (s : MatchState) : Attempted :=
  match s.enter with
  | (false, s) => return (none, s)
  | (true, s) => do
    let (stop, s) ← rule s
    return (stop, s.leave)

def Writes (change : MatchState → Except Fault MatchState) : Prop :=
  ∃ h : Registers → Except Fault Registers,
    ∀ s, change s = (h s.regs).map fun regs => { s with regs }

namespace Writes

theorem setConsumed (slot : Nat) (p : Option Nat) : Writes (·.setConsumed slot p) := by
  refine ⟨(·.setConsumed slot p), fun s => ?_⟩
  unfold MatchState.setConsumed
  cases s.regs.setConsumed slot p <;> rfl

theorem setCount (slot n : Nat) : Writes (·.setCount slot n) := by
  refine ⟨(·.setCount slot n), fun s => ?_⟩
  unfold MatchState.setCount
  cases s.regs.setCount slot n <;> rfl

theorem setGroup (n : Nat) (start stop : Option Nat) : Writes (·.setGroup n start stop) := by
  refine ⟨(·.setGroup n start stop), fun s => ?_⟩
  unfold MatchState.setGroup
  cases s.regs.setGroup n start stop <;> rfl

theorem restoreFrame {change : MatchState → Except Fault MatchState} (writes : Writes change)
    (f : Frame) (saved : Registers) : Writes fun s => change (s.restoreFrame f saved) := by
  obtain ⟨h, same⟩ := writes
  exact ⟨fun r => h (r.restoreFrame f saved), fun s => same (s.restoreFrame f saved)⟩

theorem trans {first second : MatchState → Except Fault MatchState} (one : Writes first)
    (two : Writes second) : Writes fun s => first s >>= second := by
  obtain ⟨h, same⟩ := one
  obtain ⟨h', same'⟩ := two
  refine ⟨fun r => h r >>= h', fun s => ?_⟩
  dsimp only
  rw [same]
  cases h s.regs with
  | error e => rfl
  | ok r => exact same' _

theorem budget {change : MatchState → Except Fault MatchState} (writes : Writes change)
    {s s' : MatchState} (wrote : change s = .ok s') : s'.budget = s.budget := by
  obtain ⟨h, same⟩ := writes
  rw [same] at wrote
  cases made : h s.regs with
  | error e => rw [made] at wrote; cases wrote
  | ok r => rw [made] at wrote; cases wrote; rfl

theorem again {change : MatchState → Except Fault MatchState} (writes : Writes change)
    {B : Budget → Budget → Prop} {s s' u' : MatchState} (linked : s.Linked B s')
    (wrote : change s' = .ok u') : ∃ u, change s = .ok u ∧ u.Linked B u' := by
  obtain ⟨h, same⟩ := writes
  rw [same] at wrote
  cases made : h s'.regs with
  | error e => rw [made] at wrote; cases wrote
  | ok r =>
    rw [made] at wrote
    cases wrote
    exact ⟨{ s with regs := r }, by rw [same, linked.regs, made]; rfl, rfl, linked.budget⟩

end Writes

namespace Carries

variable {B : Budget → Budget → Prop} {E : Budget → Prop} {f f' k k' : MatchState → Attempted}

theorem answer (r : Option Nat) : Carries B E (fun s => return (r, s)) fun s => return (r, s) := by
  constructor
  case before =>
    intro s' r u' ok spent
    cases ok
    exact spent
  case again =>
    intro s s' r u' linked ok _
    cases ok
    exact ⟨s, rfl, linked⟩

theorem fault (f : MatchState → Attempted) (e : Fault) : Carries B E f fun _ => .error e := by
  constructor
  case before =>
    intro s' r u' ok
    cases ok
  case again =>
    intro s s' r u' _ ok
    cases ok

theorem depends {x : MatchState → α} {k l : α → MatchState → Attempted}
    (same : ∀ {s s'}, s.Linked B s' → x s = x s') (rest : ∀ a, Carries B E (k a) (l a)) :
    Carries B E (fun s => k (x s) s) fun s => l (x s) s := by
  constructor
  case before =>
    intro s' r u' ok
    exact (rest _).before ok
  case again =>
    intro s s' r u' linked ok spent
    rw [same linked]
    exact (rest _).again linked ok spent

theorem reading {x : MatchState → Except Fault α} {k k' : α → MatchState → Attempted}
    (same : ∀ {s s'}, s.Linked B s' → x s = x s') (rest : ∀ a, Carries B E (k a) (k' a)) :
    Carries B E (fun s => x s >>= fun a => k a s) fun s => x s >>= fun a => k' a s := by
  refine depends (k := fun found s => found >>= fun a => k a s)
    (l := fun found s => found >>= fun a => k' a s) same ?_
  intro found
  cases found with
  | error e => exact fault _ e
  | ok a => exact rest a

theorem bind {k k' : Option Nat × MatchState → Attempted} (first : Carries B E f f')
    (rest : ∀ r, Carries B E (fun s => k (r, s)) fun s => k' (r, s)) :
    Carries B E (fun s => f s >>= k) fun s => f' s >>= k' := by
  constructor
  case before =>
    intro s' r' u' ok spent
    obtain ⟨⟨r, s⟩, answer, ok⟩ := bind_success ok
    exact first.before answer ((rest r).before ok spent)
  case again =>
    intro s s' r' u' linked ok spent
    obtain ⟨⟨r, middle⟩, answer, ok⟩ := bind_success ok
    obtain ⟨between, answer', linked'⟩ := first.again linked answer ((rest r).before ok spent)
    rw [answer']
    exact (rest r).again linked' ok spent

theorem writing {change : MatchState → Except Fault MatchState} (writes : Writes change)
    (rest : Carries B E k k') :
    Carries B E (fun s => change s >>= k) fun s => change s >>= k' := by
  constructor
  case before =>
    intro s' r u' ok spent
    obtain ⟨s, wrote, ok⟩ := bind_success ok
    rw [← writes.budget wrote]
    exact rest.before ok spent
  case again =>
    intro s s' r u' linked ok spent
    obtain ⟨middle, wrote, ok⟩ := bind_success ok
    obtain ⟨between, wrote', linked'⟩ := writes.again linked wrote
    rw [wrote']
    exact rest.again linked' ok spent

theorem orElse (first : Carries B E f f') (second : Carries B E k k') :
    Carries B E (fun s => (f s).orElse k) fun s => (f' s).orElse k' := by
  apply first.bind
  intro r
  cases r with
  | some q => exact answer (some q)
  | none => exact second

theorem orUndo {undo : MatchState → Except Fault MatchState} (first : Carries B E f f')
    (writes : Writes undo) :
    Carries B E (fun s => (f s).orUndo undo) fun s => (f' s).orUndo undo := by
  apply first.bind
  intro r
  cases r with
  | some q => exact answer (some q)
  | none => exact writing writes (answer none)

section Rules

variable {visit visit' : Visit} {t : Text}

theorem proceed (lasts : Budget.Lasts B E) (rest : Carries B E k k') :
    Carries B E (fun s => match s.proceed with
      | (false, s) => return (none, s)
      | (true, s) => k s) fun s => match s.proceed with
      | (false, s) => return (none, s)
      | (true, s) => k' s := by
  constructor
  case before =>
    intro s _ _ ok spent
    cases polled : s.budget.poll with
    | mk may b =>
      have took : s.proceed = (may, { s with budget := b }) := by
        simp [MatchState.proceed, polled]
      rw [took] at ok
      cases may with
      | false =>
        cases ok
        exact lasts.before polled spent
      | true => exact lasts.before polled (rest.before ok spent)
  case again =>
    intro s s' r u' linked ok spent
    cases polled' : s'.budget.poll with
    | mk may b' =>
      have took' : s'.proceed = (may, { s' with budget := b' }) := by
        simp [MatchState.proceed, polled']
      rw [took'] at ok
      have there : E b' := by
        cases may with
        | false => cases ok; exact spent
        | true => exact rest.before ok spent
      obtain ⟨b, polled, linked'⟩ := lasts.poll linked.budget polled' there
      have took : s.proceed = (may, { s with budget := b }) := by
        simp [MatchState.proceed, polled]
      have together : MatchState.Linked B { s with budget := b } { s' with budget := b' } :=
        ⟨linked.regs, linked'⟩
      rw [took]
      cases may with
      | false =>
        cases ok
        exact ⟨_, rfl, together⟩
      | true => exact rest.again together ok spent

theorem guarded (lasts : Budget.Lasts B E) (c : Bool) (rest : Carries B E f f') :
    Carries B E (fun s => if c && !s.isHalted then f s else return (none, s))
      fun s => if c && !s.isHalted then f' s else return (none, s) := by
  refine depends (x := MatchState.isHalted)
    (k := fun halt s => if c && !halt then f s else return (none, s))
    (l := fun halt s => if c && !halt then f' s else return (none, s))
    (fun linked => lasts.halted linked.budget) ?_
  intro halt
  split
  · exact rest
  · exact answer none

theorem consumed {slot : Nat} {k k' : Option Nat → MatchState → Attempted}
    (rest : ∀ begun, Carries B E (k begun) (k' begun)) :
    Carries B E (fun s => s.consumed slot >>= fun p => k p s)
      fun s => s.consumed slot >>= fun p => k' p s := by
  apply reading _ rest
  intro s s' linked
  rw [MatchState.consumed, linked.regs, MatchState.consumed]

theorem count {slot : Nat} {k k' : Nat → MatchState → Attempted}
    (rest : ∀ n, Carries B E (k n) (k' n)) :
    Carries B E (fun s => s.count slot >>= fun n => k n s)
      fun s => s.count slot >>= fun n => k' n s := by
  apply reading _ rest
  intro s s' linked
  rw [MatchState.count, linked.regs, MatchState.count]

theorem save {f : Frame} {k k' : Registers → MatchState → Attempted}
    (rest : ∀ saved, Carries B E (k saved) (k' saved)) :
    Carries B E (fun s => s.save f >>= fun saved => k saved s)
      fun s => s.save f >>= fun saved => k' saved s := by
  apply reading _ rest
  intro s s' linked
  rw [MatchState.save, linked.regs, MatchState.save]

variable {g : Graph}

theorem leafEnd_linked {s s' : MatchState} (linked : s.Linked B s') (id : NodeId) :
    g.leafEnd t s id = g.leafEnd t s' id := by
  funext p
  simp only [Graph.leafEnd, MatchState.group, MatchState.origin, linked.regs]

variable (lasts : Budget.Lasts B E) (visits : ∀ id p, Carries B E (visit id p) (visit' id p))
include lasts visits

theorem firstSuccess (choices : List (NodeId × Nat)) :
    Carries B E (firstSuccess visit choices) (firstSuccess visit' choices) := by
  induction choices with
  | nil => exact answer none
  | cons choice rest ih =>
    apply proceed lasts
    exact orElse (visits choice.1 choice.2) ih

theorem firstBranch (branches : List NodeId) (p : Nat) :
    Carries B E (firstBranch visit branches p) (firstBranch visit' branches p) := by
  exact firstSuccess lasts visits (branches.map (·, p))

theorem group (slot : Nat) (branches : List NodeId) (p : Nat) :
    Carries B E (Attempt.group visit slot branches p) (Attempt.group visit' slot branches p) := by
  apply consumed
  intro prior
  apply writing (.setConsumed slot (some p))
  exact orUndo (firstBranch lasts visits branches p) (.setConsumed slot prior)

omit lasts in
theorem groupEnd (slot : Nat) (capture : Option Nat) (next : NodeId) (p : Nat) :
    Carries B E (Attempt.groupEnd visit slot capture next p)
      (Attempt.groupEnd visit' slot capture next p) := by
  cases capture with
  | none => exact visits next p
  | some n =>
    apply reading
    · intro s s' linked
      rw [MatchState.groupStart, linked.regs, MatchState.groupStart]
    intro priorStart
    apply reading
    · intro s s' linked
      rw [MatchState.groupStop, linked.regs, MatchState.groupStop]
    intro priorStop
    apply consumed
    intro begun
    apply writing (.setGroup n begun (some p))
    exact orUndo (visits next p) (.setGroup n priorStart priorStop)

theorem iterate (l : Loop) (p : Nat) :
    Carries B E (Attempt.iterate visit l p) (Attempt.iterate visit' l p) := by
  apply proceed lasts
  apply consumed
  intro prior
  apply writing (.setConsumed l.slot (some p))
  exact orUndo (visits l.body p) (.setConsumed l.slot prior)

theorem repeatStep (l : Loop) (p : Nat) :
    Carries B E (Attempt.repeatStep visit l p) (Attempt.repeatStep visit' l p) := by
  apply count
  intro n
  have again : Carries B E
      (fun s => if belowMax n l.max then Attempt.iterate visit l p s else return (none, s))
      fun s => if belowMax n l.max then Attempt.iterate visit' l p s else return (none, s) := by
    split
    · exact iterate lasts visits l p
    · exact answer none
  dsimp only
  split
  · exact orElse again (guarded lasts _ (visits l.next p))
  · split
    · exact orElse (visits l.next p) again
    · exact again

theorem loop (l : Loop) (p : Nat) :
    Carries B E (Attempt.loop visit l p) (Attempt.loop visit' l p) := by
  apply count
  intro priorCount
  apply consumed
  intro prior
  apply writing (.setCount l.slot 0)
  apply writing (.setConsumed l.slot none)
  exact orUndo (repeatStep lasts visits l p)
    (.trans (.setCount l.slot priorCount) (.setConsumed l.slot prior))

theorem loopTail (l : Loop) (p : Nat) :
    Carries B E (Attempt.loopTail visit l p) (Attempt.loopTail visit' l p) := by
  apply consumed
  intro begun
  split
  · exact visits l.next p
  · apply count
    intro n
    apply writing (.setCount l.slot (Word.next n))
    exact orUndo (repeatStep lasts visits l p) (.setCount l.slot n)

theorem leafLoopGreedy (leaf : Attempt.LeafEnd) (min : Nat) (max : Option Nat) (next : NodeId)
    (p : Nat) : Carries B E (Attempt.leafLoopGreedy visit t leaf min max next p)
      (Attempt.leafLoopGreedy visit' t leaf min max next p) := by
  apply reading (fun _ => rfl)
  intro ends
  exact firstSuccess lasts visits _

theorem leafLoopReluctant (leaf : Attempt.LeafEnd) (next : NodeId) (n required p : Nat) :
    Carries B E (Attempt.leafLoopReluctant visit leaf next n required p)
      (Attempt.leafLoopReluctant visit' leaf next n required p) := by
  have goes (required p : Nat) : Carries B E
      (fun s => if required = 0 then visit next p s else return (none, s))
      fun s => if required = 0 then visit' next p s else return (none, s) := by
    split
    · exact visits next p
    · exact answer none
  induction n generalizing required p with
  | zero =>
    change Carries B E (fun s => Attempt.leafLoopReluctant visit leaf next 0 required p s)
      fun s => Attempt.leafLoopReluctant visit' leaf next 0 required p s
    unfold Attempt.leafLoopReluctant
    exact proceed lasts (orElse (goes required p) (answer none))
  | succ n ih =>
    change Carries B E (fun s => Attempt.leafLoopReluctant visit leaf next (n + 1) required p s)
      fun s => Attempt.leafLoopReluctant visit' leaf next (n + 1) required p s
    unfold Attempt.leafLoopReluctant
    apply proceed lasts
    apply orElse (goes required p)
    apply reading (fun _ => rfl)
    intro found
    cases found with
    | none => exact answer none
    | some stop =>
      dsimp only
      split
      · exact ih (required - 1) stop
      · exact answer none

theorem atomic (slot : Nat) (branches : List NodeId) (inner : Frame) (next : NodeId) (p : Nat) :
    Carries B E (Attempt.atomic visit slot branches inner next p)
      (Attempt.atomic visit' slot branches inner next p) := by
  apply consumed
  intro prior
  apply save
  intro saved
  apply writing (.setConsumed slot (some p))
  apply bind (firstBranch lasts visits branches p)
  intro found
  cases found with
  | none => exact writing (.setConsumed slot prior) (answer none)
  | some commit =>
    exact orUndo (visits next commit) (.restoreFrame (.setConsumed slot prior) inner saved)

theorem lookAhead (slot : Nat) (negative : Bool) (branches : List NodeId) (inner : Frame)
    (next : NodeId) (p : Nat) :
    Carries B E (Attempt.lookAhead visit slot negative branches inner next p)
      (Attempt.lookAhead visit' slot negative branches inner next p) := by
  apply consumed
  intro prior
  apply save
  intro saved
  apply writing (.setConsumed slot (some p))
  apply bind (firstBranch lasts visits branches p)
  intro found
  exact orUndo (guarded lasts _ (visits next p))
    (.restoreFrame (.setConsumed slot prior) inner saved)

theorem visitNode (id : NodeId) (p : Nat) :
    Carries B E (g.visitNode t visit id p) (g.visitNode t visit' id p) := by
  apply reading (fun _ => rfl)
  intro n
  cases n with
  | succeed | commit _ => exact answer (some p)
  | literal _ _ next | charClass _ next | backReference _ _ next | anchor _ next =>
    apply reading (fun linked => by rw [leafEnd_linked linked])
    intro found
    cases found with
    | none => exact answer none
    | some stop => exact visits next stop
  | sequence children next => exact visits _ p
  | group slot _ branches _ => exact group lasts visits slot branches p
  | groupEnd slot capture next => exact groupEnd visits slot capture next p
  | loop l => exact loop lasts visits l p
  | loopTail owner =>
    apply reading (fun _ => rfl)
    intro found
    cases found with
    | none => exact answer none
    | some l => exact loopTail lasts visits l p
  | leafLoop leaf min max greedy next =>
    refine depends (x := fun s => g.leafEnd t s leaf) (k := fun leaf s =>
      if greedy then Attempt.leafLoopGreedy visit t leaf min max next p s
      else Attempt.leafLoopReluctant visit leaf next (Attempt.iterationsWithin t p max) min p s)
      (l := fun leaf s =>
      if greedy then Attempt.leafLoopGreedy visit' t leaf min max next p s
      else Attempt.leafLoopReluctant visit' leaf next (Attempt.iterationsWithin t p max) min p s)
      (fun linked => leafEnd_linked linked leaf) ?_
    intro leaf
    split
    · exact leafLoopGreedy lasts visits leaf min max next p
    · exact leafLoopReluctant lasts visits leaf next _ min p
  | atomic slot branches inner next => exact atomic lasts visits slot branches inner next p
  | lookAhead slot negative branches inner next =>
    exact lookAhead lasts visits slot negative branches inner next p

end Rules

theorem opened {I : Budget → Budget → Prop} (enters : Budget.Enters B I E)
    (inside : Carries I E f f') : Carries B E (Attempt.opened f) (Attempt.opened f') := by
  constructor
  case before =>
    intro s _ _ ok spent
    cases entered : s.budget.enter with
    | mk may b =>
      have took : s.enter = (may, { s with budget := b }) := by
        simp [MatchState.enter, entered]
      rw [Attempt.opened, took] at ok
      cases may with
      | false =>
        cases ok
        exact enters.before entered spent
      | true =>
        obtain ⟨⟨stop, after⟩, visited, last⟩ := bind_success ok
        cases pure_success last
        exact enters.before entered (inside.before visited (enters.left spent))
  case again =>
    intro s s' r u' linked ok spent
    cases entered' : s'.budget.enter with
    | mk may b' =>
      have took' : s'.enter = (may, { s' with budget := b' }) := by
        simp [MatchState.enter, entered']
      rw [Attempt.opened, took'] at ok
      rw [Attempt.opened]
      cases may with
      | false =>
        cases ok
        obtain ⟨b, entered, linked'⟩ := enters.refused linked.budget entered' spent
        have took : s.enter = (false, { s with budget := b }) := by
          simp [MatchState.enter, entered]
        rw [took]
        exact ⟨_, rfl, linked.regs, linked'⟩
      | true =>
        obtain ⟨⟨stop, after'⟩, visited', last⟩ := bind_success ok
        cases pure_success last
        obtain ⟨b, entered, linked'⟩ := enters.granted linked.budget entered'
          (inside.before visited' (enters.left spent))
        have took : s.enter = (true, { s with budget := b }) := by
          simp [MatchState.enter, entered]
        have together : MatchState.Linked I { s with budget := b } { s' with budget := b' } :=
          ⟨linked.regs, linked'⟩
        obtain ⟨after, visited, further⟩ := inside.again together visited' (enters.left spent)
        rw [took]
        dsimp only
        rw [visited]
        exact ⟨after.leave, rfl, further.regs, enters.leave further.budget⟩

theorem visit {I : Budget → Budget → Prop} (enters : Budget.Enters B I E) {g : Graph} {t : Text}
    {depth depth' : Nat} {id : NodeId} {p : Nat}
    (inside : Carries I E (g.visitNode t (g.attemptWithin t depth) id p)
      (g.visitNode t (g.attemptWithin t depth') id p)) :
    Carries B E (g.attemptWithin t (depth + 1) id p) (g.attemptWithin t (depth' + 1) id p) := by
  exact opened enters inside

end Carries

end BacktrackRegex
