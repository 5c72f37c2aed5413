import BacktrackRegex.Proofs.Displaced
import BacktrackRegex.Proofs.Stretches

/-! Two matches abreast, the second as many bytes further on as other text stands before its text.
Captures and budgets go together. A slot goes together only while it is live: while what its group
or iteration wrote is still to be read. What slots hold otherwise may be anything. -/
namespace BacktrackRegex

/-- The slots that are still to be read: where their content began, and the completed iterations. -/
structure Live where
  begun : Nat → Prop
  counted : Nat → Prop

namespace Live

def nothing : Live := ⟨fun _ => False, fun _ => False⟩

def begin (live : Live) (slot : Nat) : Live :=
  { live with begun := fun k => k = slot ∨ live.begun k }

def count (live : Live) (slot : Nat) : Live :=
  { live with counted := fun k => k = slot ∨ live.counted k }

def loop (live : Live) (slot : Nat) : Live := (live.count slot).begin slot

def Apart (live : Live) (slots : Interval) : Prop :=
  ∀ k, live.begun k ∨ live.counted k → slots.contains k = false

structure Within (live more : Live) : Prop where
  begun : ∀ k, live.begun k → more.begun k
  counted : ∀ k, live.counted k → more.counted k

namespace Within

variable {live : Live} {slot : Nat}

theorem nothing : Within .nothing live := by
  constructor <;> exact fun _ => False.elim

theorem begin : live.Within (live.begin slot) := by
  constructor
  case begun => exact fun _ lives => .inr lives
  case counted => exact fun _ lives => lives

theorem count : live.Within (live.count slot) := by
  constructor
  case begun => exact fun _ lives => lives
  case counted => exact fun _ lives => .inr lives

theorem loop : live.Within (live.loop slot) := by
  constructor <;> exact fun _ lives => .inr lives

end Within

end Live

namespace Registers

/-- Registers of two matches, the second `n` bytes further on. -/
structure Abreast (n : Nat) (live : Live) (r r' : Registers) : Prop where
  begun : ∀ k, live.begun k → r'.consumed[k]? = r.consumed[k]?.map (·.map (n + ·))
  counted : ∀ k, live.counted k → r'.counts[k]? = r.counts[k]?
  starts : r'.starts = r.starts.map (·.map (n + ·))
  ends : r'.ends = r.ends.map (·.map (n + ·))
  origin : r'.origin = n + r.origin

namespace Abreast

variable {n : Nat} {live more : Live} {r r' u u' : Registers} {slot : Nat}

theorem fewer (abreast : r.Abreast n more r') (within : live.Within more) :
    r.Abreast n live r' := by
  constructor
  case begun =>
    intro k lives
    exact abreast.begun k (within.begun k lives)
  case counted =>
    intro k lives
    exact abreast.counted k (within.counted k lives)
  case starts => exact abreast.starts
  case ends => exact abreast.ends
  case origin => exact abreast.origin

theorem putConsumed (abreast : r.Abreast n live r') (bound : slot < r.consumed.size)
    (bound' : slot < r'.consumed.size) (p : Option Nat) :
    (r.putConsumed slot p).Abreast n (live.begin slot)
      (r'.putConsumed slot (p.map (n + ·))) := by
  constructor
  case begun =>
    intro k lives
    by_cases here : slot = k
    · subst here
      simp [Registers.putConsumed, bound, bound']
    · simpa [Registers.putConsumed, here] using
        abreast.begun k (lives.resolve_left fun same => here same.symm)
  case counted => exact abreast.counted
  case starts => exact abreast.starts
  case ends => exact abreast.ends
  case origin => exact abreast.origin

theorem putCount (abreast : r.Abreast n live r') (bound : slot < r.counts.size)
    (bound' : slot < r'.counts.size) (c : Nat) :
    (r.putCount slot c).Abreast n (live.count slot) (r'.putCount slot c) := by
  constructor
  case begun => exact abreast.begun
  case counted =>
    intro k lives
    by_cases here : slot = k
    · subst here
      simp [Registers.putCount, bound, bound']
    · simpa [Registers.putCount, here] using
        abreast.counted k (lives.resolve_left fun same => here same.symm)
  case starts => exact abreast.starts
  case ends => exact abreast.ends
  case origin => exact abreast.origin

theorem putGroup (abreast : r.Abreast n live r') (k : Nat) (start stop : Option Nat) :
    (r.putGroup k start stop).Abreast n live
      (r'.putGroup k (start.map (n + ·)) (stop.map (n + ·))) := by
  constructor
  case begun => exact abreast.begun
  case counted => exact abreast.counted
  case starts => simp [Registers.putGroup, abreast.starts, Array.map_setIfInBounds]
  case ends => simp [Registers.putGroup, abreast.ends, Array.map_setIfInBounds]
  case origin => exact abreast.origin

theorem group (abreast : r.Abreast n live r') (k : Nat) :
    r'.group k = (r.group k).map (·.map (·.shift n)) := by
  simp only [Registers.group, Registers.read, abreast.starts, abreast.ends, Array.getElem?_map]
  rcases r.starts[k]? with _ | _ | _ <;> rcases r.ends[k]? with _ | _ | _ <;> rfl

theorem committed (abreast : r.Abreast n live r') (after : u.Abreast n .nothing u') {f : Frame}
    (apart : live.Apart f.slots) (same : r.AgreeOutside f u) (same' : r'.AgreeOutside f u') :
    u.Abreast n live u' := by
  constructor
  case begun =>
    intro k lives
    rw [same.consumed k (apart k (.inl lives)), same'.consumed k (apart k (.inl lives))]
    exact abreast.begun k lives
  case counted =>
    intro k lives
    rw [same.counts k (apart k (.inr lives)), same'.counts k (apart k (.inr lives))]
    exact abreast.counted k lives
  case starts => exact after.starts
  case ends => exact after.ends
  case origin => exact after.origin

end Abreast

end Registers

structure MatchState.Abreast (n : Nat) (live : Live) (s s' : MatchState) : Prop where
  regs : s.regs.Abreast n live s'.regs
  budget : s'.budget = s.budget

def SameAnswer (n : Nat) : Option Nat × MatchState → Option Nat × MatchState → Prop
  | (none, s), (none, s') => s'.budget = s.budget
  | (some q, s), (some q', s') => q' = n + q ∧ s.Abreast n .nothing s'
  | _, _ => False

theorem SameAnswer.stop {n : Nat} {a a' : Option Nat × MatchState} (same : SameAnswer n a a') :
    a'.1 = a.1.map (n + ·) ∧ a'.2.budget = a.2.budget := by
  match a, a', same with
  | (none, s), (none, s'), budget => exact ⟨rfl, budget⟩
  | (some q, s), (some _, s'), ⟨rfl, abreast⟩ => exact ⟨rfl, abreast.budget⟩

def InStep (n : Nat) (x x' : Attempted) : Prop :=
  ∀ a a', x = .ok a → x' = .ok a' → SameAnswer n a a'

def InStepAt (n : Nat) (live : Live) (visit visit' : Visit) (id p : Nat) : Prop :=
  ∀ s s', s.Abreast n live s' → InStep n (visit id p s) (visit' id (n + p) s')

def KeepsBudget (change : MatchState → Except Fault MatchState) : Prop :=
  ∀ s u, change s = .ok u → u.budget = s.budget

namespace KeepsBudget

theorem setConsumed (slot : Nat) (p : Option Nat) : KeepsBudget (·.setConsumed slot p) := by
  intro s u ok
  obtain ⟨_, rfl⟩ := MatchState.setConsumed_success.mp ok
  rfl

theorem setCount (slot c : Nat) : KeepsBudget (·.setCount slot c) := by
  intro s u ok
  obtain ⟨_, rfl⟩ := MatchState.setCount_success.mp ok
  rfl

theorem andThen {first second : MatchState → Except Fault MatchState} (keeps : KeepsBudget first)
    (keeps' : KeepsBudget second) : KeepsBudget fun s => first s >>= second := by
  intro s u ok
  obtain ⟨middle, changed, ok⟩ := bind_success ok
  rw [keeps' middle u ok, keeps s middle changed]

theorem setGroup (k : Nat) (start stop : Option Nat) : KeepsBudget (·.setGroup k start stop) := by
  intro s u ok
  obtain ⟨_, _, rfl⟩ := MatchState.setGroup_success.mp ok
  rfl

end KeepsBudget

namespace MatchState.Abreast

variable {n : Nat} {live more : Live} {s s' u u' : MatchState}

theorem fewer (abreast : s.Abreast n more s') (within : live.Within more) :
    s.Abreast n live s' := by
  have regs := abreast.regs.fewer within
  exact ⟨regs, abreast.budget⟩

theorem restored (abreast : s.Abreast n live s') (same : u.regs = s.regs)
    (same' : u'.regs = s'.regs) (budget : u'.budget = u.budget) : u.Abreast n live u' := by
  have regs : u.regs.Abreast n live u'.regs := by
    rw [same, same']
    exact abreast.regs
  exact ⟨regs, budget⟩

theorem consumed (abreast : s.Abreast n live s') {slot : Nat} (lives : live.begun slot)
    {x x' : Option Nat} (read : s.consumed slot = .ok x) (read' : s'.consumed slot = .ok x') :
    x' = x.map (n + ·) := by
  have := abreast.regs.begun slot lives
  rw [consumed_success.mp read, consumed_success.mp read'] at this
  exact Option.some.inj this

theorem count (abreast : s.Abreast n live s') {slot : Nat} (lives : live.counted slot)
    {c c' : Nat} (read : s.count slot = .ok c) (read' : s'.count slot = .ok c') : c' = c := by
  have := abreast.regs.counted slot lives
  rw [count_success.mp read, count_success.mp read'] at this
  exact Option.some.inj this

theorem setConsumed (abreast : s.Abreast n live s') {slot : Nat} {p : Option Nat}
    (wrote : s.setConsumed slot p = .ok u) (wrote' : s'.setConsumed slot (p.map (n + ·)) = .ok u') :
    u.Abreast n (live.begin slot) u' := by
  obtain ⟨bound, rfl⟩ := setConsumed_success.mp wrote
  obtain ⟨bound', rfl⟩ := setConsumed_success.mp wrote'
  exact ⟨abreast.regs.putConsumed bound bound' p, abreast.budget⟩

theorem setCount (abreast : s.Abreast n live s') {slot c : Nat} (wrote : s.setCount slot c = .ok u)
    (wrote' : s'.setCount slot c = .ok u') : u.Abreast n (live.count slot) u' := by
  obtain ⟨bound, rfl⟩ := setCount_success.mp wrote
  obtain ⟨bound', rfl⟩ := setCount_success.mp wrote'
  exact ⟨abreast.regs.putCount bound bound' c, abreast.budget⟩

theorem setGroup (abreast : s.Abreast n live s') {k : Nat} {start stop : Option Nat}
    (wrote : s.setGroup k start stop = .ok u)
    (wrote' : s'.setGroup k (start.map (n + ·)) (stop.map (n + ·)) = .ok u') :
    u.Abreast n live u' := by
  obtain ⟨_, _, rfl⟩ := setGroup_success.mp wrote
  obtain ⟨_, _, rfl⟩ := setGroup_success.mp wrote'
  exact ⟨abreast.regs.putGroup k start stop, abreast.budget⟩

theorem isHalted (abreast : s.Abreast n live s') : s'.isHalted = s.isHalted := by
  rw [MatchState.isHalted, abreast.budget, MatchState.isHalted]

theorem proceed (abreast : s.Abreast n live s') {may may' : Bool} (polled : s.proceed = (may, u))
    (polled' : s'.proceed = (may', u')) : may' = may ∧ u.Abreast n live u' := by
  obtain ⟨same, answer⟩ := proceed_budget polled
  obtain ⟨same', answer'⟩ := proceed_budget polled'
  rw [abreast.budget, answer] at answer'
  obtain ⟨rfl, budget⟩ := Prod.mk.inj answer'
  exact ⟨rfl, abreast.restored same same' budget.symm⟩

theorem enter (abreast : s.Abreast n live s') {may may' : Bool} (entered : s.enter = (may, u))
    (entered' : s'.enter = (may', u')) : may' = may ∧ u.Abreast n live u' := by
  obtain ⟨same, answer⟩ := enter_budget entered
  obtain ⟨same', answer'⟩ := enter_budget entered'
  rw [abreast.budget, answer] at answer'
  obtain ⟨rfl, budget⟩ := Prod.mk.inj answer'
  exact ⟨rfl, abreast.restored same same' budget.symm⟩

theorem leave (abreast : s.Abreast n live s') : s.leave.Abreast n live s'.leave := by
  refine ⟨abreast.regs, ?_⟩
  rw [MatchState.leave, MatchState.leave, abreast.budget]

end MatchState.Abreast

namespace InStep

variable {n : Nat} {live : Live} {s s' : MatchState} {x x' : Attempted}

theorem failure (budget : s'.budget = s.budget) : InStep n (.ok (none, s)) (.ok (none, s')) := by
  rintro _ _ ⟨⟩ ⟨⟩
  exact budget

theorem success (abreast : s.Abreast n live s') (q : Nat) :
    InStep n (.ok (some q, s)) (.ok (some (n + q), s')) := by
  rintro _ _ ⟨⟩ ⟨⟩
  exact ⟨rfl, abreast.fewer .nothing⟩

theorem bind {m : Except Fault α} {m' : Except Fault β} {f : α → Attempted} {f' : β → Attempted}
    (rest : ∀ a a', m = .ok a → m' = .ok a' → InStep n (f a) (f' a')) :
    InStep n (m >>= f) (m' >>= f') := by
  intro answer answer' ok ok'
  obtain ⟨a, first, ok⟩ := bind_success ok
  obtain ⟨a', first', ok'⟩ := bind_success ok'
  exact rest a a' first first' answer answer' ok ok'

theorem andThen {f f' : Option Nat × MatchState → Attempted} (first : InStep n x x')
    (failed : ∀ u u', x = .ok (none, u) → x' = .ok (none, u') → u'.budget = u.budget →
      InStep n (f (none, u)) (f' (none, u')))
    (found : ∀ q u u', x = .ok (some q, u) → x' = .ok (some (n + q), u') →
      u.Abreast n .nothing u' → InStep n (f (some q, u)) (f' (some (n + q), u'))) :
    InStep n (x >>= f) (x' >>= f') := by
  refine bind fun ⟨stop, u⟩ ⟨stop', u'⟩ answer answer' => ?_
  have same := first _ _ answer answer'
  cases stop with
  | none =>
    cases stop' with
    | none => exact failed u u' answer answer' same
    | some q' => exact same.elim
  | some q =>
    cases stop' with
    | none => exact same.elim
    | some q' =>
      obtain ⟨rfl, abreast⟩ := same
      exact found q u u' answer answer' abreast

theorem orElse {other other' : MatchState → Attempted} (first : InStep n x x')
    (rest : ∀ u u', x = .ok (none, u) → x' = .ok (none, u') → u'.budget = u.budget →
      InStep n (other u) (other' u')) : InStep n (x.orElse other) (x'.orElse other') := by
  apply first.andThen rest
  intro q u u' _ _ abreast
  exact success abreast q

theorem orUndo {undo undo' : MatchState → Except Fault MatchState} (first : InStep n x x')
    (keeps : KeepsBudget undo) (keeps' : KeepsBudget undo') :
    InStep n (x.orUndo undo) (x'.orUndo undo') := by
  refine first.andThen (fun u u' _ _ budget => bind fun v v' undone undone' => failure ?_)
    fun q _ _ _ _ abreast => success abreast q
  rw [keeps u v undone, keeps' u' v' undone', budget]

theorem proceed {k k' : MatchState → Attempted} (abreast : s.Abreast n live s')
    (rest : ∀ u u', u.Abreast n live u' → InStep n (k u) (k' u')) :
    InStep n
      (match s.proceed with
        | (false, s) => return (none, s)
        | (true, s) => k s)
      (match s'.proceed with
        | (false, s) => return (none, s)
        | (true, s) => k' s) := by
  cases polled : s.proceed with
  | mk may u =>
    cases polled' : s'.proceed with
    | mk may' u' =>
      obtain ⟨rfl, after⟩ := abreast.proceed polled polled'
      cases may' with
      | false => exact failure after.budget
      | true => exact rest u u' after

theorem guarded {c c' : Prop} [Decidable c] [Decidable c'] (same : c' ↔ c)
    {k k' : MatchState → Attempted} (budget : s'.budget = s.budget)
    (rest : c → InStep n (k s) (k' s')) :
    InStep n (if c then k s else return (none, s)) (if c' then k' s' else return (none, s')) := by
  simp only [same]
  split
  · next holds => exact rest holds
  · exact failure budget

end InStep

section Rules

variable {g : Graph} {t t' : Text} {visit visit' : Visit} {polls polls' n : Nat} {live : Live}
variable {p : Nat} {s s' : MatchState}

theorem firstSuccess_inStep (tidies : Tidies g t polls visit) (tidies' : Tidies g t' polls' visit')
    {choices : List (NodeId × Nat)} (each : ∀ c ∈ choices, InStepAt n live visit visit' c.1 c.2)
    (abreast : s.Abreast n live s') :
    InStep n (firstSuccess visit choices s)
      (firstSuccess visit' (choices.map fun c => (c.1, n + c.2)) s') := by
  induction choices generalizing s s' with
  | nil => exact .failure abreast.budget
  | cons choice rest ih =>
    rw [List.map_cons]
    unfold firstSuccess
    refine .proceed abreast fun u u' polled => ?_
    refine (each choice List.mem_cons_self u u' polled).orElse fun v v' failed failed' budget => ?_
    exact ih (fun c member => each c (by simp [member]))
      (polled.restored ((tidies failed).restored rfl) ((tidies' failed').restored rfl) budget)

theorem firstBranch_inStep (tidies : Tidies g t polls visit) (tidies' : Tidies g t' polls' visit')
    {branches : List NodeId} (each : ∀ b ∈ branches, InStepAt n live visit visit' b p)
    (abreast : s.Abreast n live s') :
    InStep n (firstBranch visit branches p s) (firstBranch visit' branches (n + p) s') := by
  have atBranch : ∀ c ∈ branches.map (·, p), InStepAt n live visit visit' c.1 c.2 := by
    simpa using each
  have first := firstSuccess_inStep tidies tidies' atBranch abreast
  rwa [List.map_map] at first

theorem group_inStep (tidies : Tidies g t polls visit) (tidies' : Tidies g t' polls' visit')
    {slot : Nat} {branches : List NodeId}
    (each : ∀ b ∈ branches, InStepAt n (live.begin slot) visit visit' b p)
    (abreast : s.Abreast n live s') :
    InStep n (Attempt.group visit slot branches p s)
      (Attempt.group visit' slot branches (n + p) s') := by
  refine .bind fun prior prior' _ _ => .bind fun u u' wrote wrote' => .orUndo ?_
    (.setConsumed slot prior) (.setConsumed slot prior')
  exact firstBranch_inStep tidies tidies' each (abreast.setConsumed wrote wrote')

theorem groupEnd_inStep {slot : Nat} {capture : Option Nat} {next : NodeId}
    (after : InStepAt n live visit visit' next p) (abreast : s.Abreast n (live.begin slot) s') :
    InStep n (Attempt.groupEnd visit slot capture next p s)
      (Attempt.groupEnd visit' slot capture next (n + p) s') := by
  have outside : s.Abreast n live s' := abreast.fewer .begin
  cases capture with
  | none => exact after s s' outside
  | some k =>
    refine .bind fun priorStart priorStart' _ _ => .bind fun priorStop priorStop' _ _ =>
      .bind fun start start' begun begun' => .bind fun u u' wrote wrote' => .orUndo ?_
        (.setGroup k priorStart priorStop) (.setGroup k priorStart' priorStop')
    obtain rfl := abreast.consumed (.inl rfl) begun begun'
    exact after u u' (outside.setGroup wrote wrote')

theorem guarded_restores (tidies : Tidies g t polls visit) {c : Prop} [Decidable c] {next : NodeId}
    (failed : (if c then visit next p s else return (none, s)) = .ok (none, s')) :
    s'.regs = s.regs := by
  have tidy := guarded_tidy (F := fun _ => False) tidies (fun _ => False.elim) failed
  exact tidy.restored rfl

theorem again_restores (tidies : Tidies g t polls visit) {c : Prop} [Decidable c] {l : Loop}
    (failed : (if c then Attempt.iterate visit l p s else return (none, s)) = .ok (none, s')) :
    s'.regs = s.regs := by
  split at failed
  · exact (iterate_tidy (F := fun _ => False) tidies (fun _ => False.elim) (fun _ => False.elim)
      failed).restored rfl
  · cases failed
    rfl

theorem iterate_inStep {l : Loop} (inside : InStepAt n (live.begin l.slot) visit visit' l.body p)
    (abreast : s.Abreast n live s') :
    InStep n (Attempt.iterate visit l p s) (Attempt.iterate visit' l (n + p) s') := by
  unfold Attempt.iterate
  refine .proceed abreast fun u u' polled => .bind fun prior prior' _ _ =>
    .bind fun v v' wrote wrote' => .orUndo ?_ (.setConsumed l.slot prior)
      (.setConsumed l.slot prior')
  exact inside v v' (polled.setConsumed wrote wrote')

theorem InStepAt.more {more : Live} {id : Nat} (inStep : InStepAt n live visit visit' id p)
    (within : live.Within more) : InStepAt n more visit visit' id p := by
  intro s s' abreast
  exact inStep s s' (abreast.fewer within)

theorem repeatStep_inStep (tidies : Tidies g t polls visit) (tidies' : Tidies g t' polls' visit')
    {l : Loop} (abreast : s.Abreast n live s') (counts : live.counted l.slot)
    (inside : InStepAt n (live.begin l.slot) visit visit' l.body p)
    (after : InStepAt n live visit visit' l.next p) :
    InStep n (Attempt.repeatStep visit l p s) (Attempt.repeatStep visit' l (n + p) s') := by
  refine .bind fun c c' counted counted' => ?_
  obtain rfl := abreast.count counts counted counted'
  have again {u u' : MatchState} (abreast : u.Abreast n live u') :
      InStep n (if belowMax c' l.max then Attempt.iterate visit l p u else return (none, u))
        (if belowMax c' l.max then Attempt.iterate visit' l (n + p) u' else return (none, u')) :=
    .guarded .rfl abreast.budget fun _ => iterate_inStep inside abreast
  dsimp only
  split
  · refine (again abreast).orElse fun u u' failed failed' budget => ?_
    have restored := abreast.restored (again_restores tidies failed)
      (again_restores tidies' failed') budget
    refine .guarded ?_ budget fun _ => after u u' restored
    rw [restored.isHalted]
  · split
    · refine (after s s' abreast).orElse fun u u' failed failed' budget => again ?_
      exact abreast.restored ((tidies failed).restored rfl) ((tidies' failed').restored rfl) budget
    · exact again abreast

theorem loop_inStep (tidies : Tidies g t polls visit) (tidies' : Tidies g t' polls' visit')
    {l : Loop} (inside : InStepAt n (live.loop l.slot) visit visit' l.body p)
    (after : InStepAt n live visit visit' l.next p) (abreast : s.Abreast n live s') :
    InStep n (Attempt.loop visit l p s) (Attempt.loop visit' l (n + p) s') := by
  refine .bind fun priorCount priorCount' _ _ => .bind fun prior prior' _ _ =>
    .bind fun u u' counted counted' => .bind fun v v' begun begun' => .orUndo ?_
      (.andThen (.setCount _ priorCount) (.setConsumed _ prior))
      (.andThen (.setCount _ priorCount') (.setConsumed _ prior'))
  have entered : v.Abreast n (live.loop l.slot) v' :=
    (abreast.setCount counted counted').setConsumed begun begun'
  exact repeatStep_inStep tidies tidies' entered (.inl rfl) (inside.more .begin) (after.more .loop)

theorem loopTail_inStep (tidies : Tidies g t polls visit) (tidies' : Tidies g t' polls' visit')
    {l : Loop} (inside : InStepAt n (live.loop l.slot) visit visit' l.body p)
    (after : InStepAt n live visit visit' l.next p)
    (abreast : s.Abreast n (live.loop l.slot) s') :
    InStep n (Attempt.loopTail visit l p s) (Attempt.loopTail visit' l (n + p) s') := by
  have further : InStepAt n (live.loop l.slot) visit visit' l.next p := after.more .loop
  refine .bind fun began began' read read' => ?_
  obtain rfl := abreast.consumed (.inl rfl) read read'
  have here : began.map (n + ·) = some (n + p) ↔ began = some p := by
    cases began <;> simp
  simp only [here]
  split
  · exact further s s' abreast
  · refine .bind fun c c' counted counted' => .bind fun u u' wrote wrote' => .orUndo ?_
      (.setCount l.slot c) (.setCount l.slot c')
    obtain rfl := abreast.count (.inl rfl) counted counted'
    have stepped : u.Abreast n (live.loop l.slot) u' :=
      (abreast.setCount wrote wrote').fewer .count
    exact repeatStep_inStep tidies tidies' stepped (.inl rfl) (inside.more .begin) further

theorem committed_abreast (tidies : Tidies g t polls visit) (tidies' : Tidies g t' polls' visit')
    {branches : List NodeId} {inner : Frame} (enclosed : ∀ b ∈ branches, g.Confined b inner)
    (apart : live.Apart inner.slots) (abreast : s.Abreast n live s') {u u' : MatchState}
    {q q' : Option Nat} {p' : Nat} (answer : firstBranch visit branches p s = .ok (q, u))
    (answer' : firstBranch visit' branches p' s' = .ok (q', u')) (after : u.Abreast n .nothing u') :
    u.Abreast n live u' := by
  have same := (committed_tidy tidies enclosed answer).framed inner rfl
  have same' := (committed_tidy tidies' enclosed answer').framed inner rfl
  exact ⟨abreast.regs.committed after.regs apart same same', after.budget⟩

theorem restoreFrame_keepsBudget (inner : Frame) (saved : Registers) (slot : Nat)
    (prior : Option Nat) :
    KeepsBudget fun s => (s.restoreFrame inner saved).setConsumed slot prior := by
  intro s u ok
  exact KeepsBudget.setConsumed slot prior (s.restoreFrame inner saved) u ok

theorem atomic_inStep (tidies : Tidies g t polls visit) (tidies' : Tidies g t' polls' visit')
    {slot : Nat} {branches : List NodeId} {inner : Frame} {next : NodeId}
    (enclosed : ∀ b ∈ branches, g.Confined b inner) (apart : live.Apart inner.slots)
    (each : ∀ b ∈ branches, InStepAt n .nothing visit visit' b p)
    (after : ∀ q, t.Reaches p q → InStepAt n live visit visit' next q)
    (abreast : s.Abreast n live s') :
    InStep n (Attempt.atomic visit slot branches inner next p s)
      (Attempt.atomic visit' slot branches inner next (n + p) s') := by
  refine .bind fun prior prior' _ _ => .bind fun saved saved' _ _ =>
    .bind fun u u' wrote wrote' => ?_
  have begun : u.Abreast n live u' := (abreast.setConsumed wrote wrote').fewer .begin
  refine (firstBranch_inStep tidies tidies' each (begun.fewer .nothing)).andThen
    (fun v v' _ _ budget => .bind fun w w' undone undone' => .failure ?_)
    fun q v v' answer answer' captured => .orUndo ?_
      (restoreFrame_keepsBudget inner saved slot prior)
      (restoreFrame_keepsBudget inner saved' slot prior')
  · rw [KeepsBudget.setConsumed slot prior v w undone,
      KeepsBudget.setConsumed slot prior' v' w' undone', budget]
  · have reaches := (committed_tidy tidies enclosed answer).forward q rfl
    exact after q reaches v v'
      (committed_abreast tidies tidies' enclosed apart begun answer answer' captured)

theorem lookAhead_inStep (tidies : Tidies g t polls visit) (tidies' : Tidies g t' polls' visit')
    {slot : Nat} {negative : Bool} {branches : List NodeId} {inner : Frame} {next : NodeId}
    (enclosed : ∀ b ∈ branches, g.Confined b inner) (apart : live.Apart inner.slots)
    (each : ∀ b ∈ branches, InStepAt n .nothing visit visit' b p)
    (after : InStepAt n live visit visit' next p) (abreast : s.Abreast n live s') :
    InStep n (Attempt.lookAhead visit slot negative branches inner next p s)
      (Attempt.lookAhead visit' slot negative branches inner next (n + p) s') := by
  refine .bind fun prior prior' _ _ => .bind fun saved saved' _ _ =>
    .bind fun u u' wrote wrote' => ?_
  have begun : u.Abreast n live u' := (abreast.setConsumed wrote wrote').fewer .begin
  have undo := restoreFrame_keepsBudget inner saved slot prior
  have undo' := restoreFrame_keepsBudget inner saved' slot prior'
  refine (firstBranch_inStep tidies tidies' each (begun.fewer .nothing)).andThen
    (fun v v' answer answer' budget => .orUndo ?_ undo undo')
    fun q v v' answer answer' captured => .orUndo ?_ undo undo'
  · have restored := begun.restored (firstBranch_restores tidies answer)
      (firstBranch_restores tidies' answer') budget
    exact .guarded (by rw [restored.isHalted]) budget fun _ => after v v' restored
  · have committed := committed_abreast tidies tidies' enclosed apart begun answer answer' captured
    exact .guarded (by rw [committed.isHalted]; rfl) committed.budget fun _ => after v v' committed

def LeafShift (n : Nat) (t : Text) (leaf leaf' : Attempt.LeafEnd) : Prop :=
  ∀ p, t.isBoundary p = true → leaf' (n + p) = (leaf p).map (·.map (n + ·))

theorem LeafShift.leafEnds {leaf leaf' : Attempt.LeafEnd} (shift : LeafShift n t leaf leaf')
    (forward : ∀ {p q}, leaf p = .ok (some q) → t.Reaches p q) (k : Nat) {p : Nat}
    (valid : t.isBoundary p = true) :
    Attempt.leafEnds leaf' k (n + p) = (Attempt.leafEnds leaf k p).map (·.map (n + ·)) := by
  induction k generalizing p with
  | zero => rfl
  | succ k ih =>
    simp only [Attempt.leafEnds, shift p valid, bind, Except.bind]
    cases ended : leaf p with
    | error e => rfl
    | ok found =>
      cases found with
      | none => rfl
      | some stop =>
        simp only [Except.map, Option.map_some, Nat.add_lt_add_iff_left]
        split
        · rw [ih ((forward ended).boundary valid)]
          cases Attempt.leafEnds leaf k stop <;> rfl
        · rfl

theorem iterationsWithin_shift (displaced : t.Displaced n t') (p : Nat) (max : Option Nat) :
    Attempt.iterationsWithin t' (n + p) max = Attempt.iterationsWithin t p max := by
  simp only [Attempt.iterationsWithin, displaced.size, Nat.add_sub_add_left]

theorem leafLoopGreedy_inStep (tidies : Tidies g t polls visit)
    (tidies' : Tidies g t' polls' visit') (displaced : t.Displaced n t')
    {leaf leaf' : Attempt.LeafEnd} (shift : LeafShift n t leaf leaf')
    (forward : ∀ {p q}, leaf p = .ok (some q) → t.Reaches p q) {min : Nat} {max : Option Nat}
    {next : NodeId} (valid : t.isBoundary p = true)
    (after : ∀ q, t.Reaches p q → InStepAt n live visit visit' next q)
    (abreast : s.Abreast n live s') :
    InStep n (Attempt.leafLoopGreedy visit t leaf min max next p s)
      (Attempt.leafLoopGreedy visit' t' leaf' min max next (n + p) s') := by
  simp only [Attempt.leafLoopGreedy, iterationsWithin_shift displaced,
    shift.leafEnds forward _ valid]
  refine .bind fun ends ends' reached reached' => ?_
  rw [reached] at reached'
  obtain rfl := Except.ok.inj reached'
  have each : ∀ c ∈ (ends.drop min).reverse.map (next, ·),
      InStepAt n live visit visit' c.1 c.2 := by
    intro c member
    obtain ⟨q, later, rfl⟩ := List.mem_map.mp member
    exact after q (Attempt.reaches_of_mem_leafEnds forward reached
      (List.mem_of_mem_drop (List.mem_reverse.mp later)))
  have choices := firstSuccess_inStep tidies tidies' each abreast
  simpa [List.map_drop, List.map_reverse, Function.comp_def] using choices

theorem leafLoopReluctant_inStep (tidies : Tidies g t polls visit)
    (tidies' : Tidies g t' polls' visit') {leaf leaf' : Attempt.LeafEnd}
    (shift : LeafShift n t leaf leaf')
    (forward : ∀ {p q}, leaf p = .ok (some q) → t.Reaches p q) {next : NodeId}
    (valid : t.isBoundary p = true)
    (after : ∀ q, t.Reaches p q → InStepAt n live visit visit' next q) {k required : Nat}
    (abreast : s.Abreast n live s') :
    InStep n (Attempt.leafLoopReluctant visit leaf next k required p s)
      (Attempt.leafLoopReluctant visit' leaf' next k required (n + p) s') := by
  induction k generalizing required p s s' with
  | zero =>
    unfold Attempt.leafLoopReluctant
    refine .proceed abreast fun u u' polled => .orElse (.guarded .rfl polled.budget fun _ => ?_)
      fun v v' _ _ budget => .failure budget
    exact after p (.refl t p) u u' polled
  | succ k ih =>
    unfold Attempt.leafLoopReluctant
    refine .proceed abreast fun u u' polled => .orElse (.guarded .rfl polled.budget fun _ => ?_)
      fun v v' failed failed' budget => ?_
    · exact after p (.refl t p) u u' polled
    · have restored := polled.restored (guarded_restores tidies failed)
        (guarded_restores tidies' failed') budget
      refine .bind fun found found' ended ended' => ?_
      rw [shift p valid, ended] at ended'
      obtain rfl := Except.ok.inj ended'
      cases found with
      | none => exact .failure budget
      | some stop =>
        have reaches := forward ended
        exact .guarded Nat.add_lt_add_iff_left budget fun _ => ih (reaches.boundary valid)
          (fun q later => after q (reaches.trans later)) restored

end Rules

theorem Graph.leafEnd_shift {g : Graph} {t t' : Text} {n : Nat} (displaced : t.Displaced n t')
    {e : Expr} {next id : NodeId} {leaf : Node} (single : e.leafNode? next = some leaf)
    (here : g.nodes[id]? = some leaf) (blind : n = 0 ∨ e.looksBack = false) {live : Live}
    {s s' : MatchState} (abreast : s.Abreast n live s') :
    LeafShift n t (g.leafEnd t s id) (g.leafEnd t' s' id) := by
  intro p valid
  revert single
  fun_cases Expr.leafNode? e next <;> intro single <;> cases single <;>
    simp only [leafEnd, node_success.mpr here, bind, Except.bind]
  · exact literalEnd_shift displaced _ _ p
  · exact CharClass.endAt_shift displaced _ p
  · next condition =>
    have origin : s'.origin = n + s.origin := abreast.regs.origin
    rw [origin, condition.holdsAt_shift displaced blind valid]
    cases condition.holdsAt t p s.origin with
    | error e => rfl
    | ok holds => cases holds <;> rfl
  · next k ignoreCase =>
    rw [MatchState.group, abreast.regs.group k, MatchState.group]
    cases s.regs.group k with
    | error e => rfl
    | ok captured => exact backReferenceEnd_shift displaced captured ignoreCase p

end BacktrackRegex
