import BacktrackRegex.Proofs.Leaves
import BacktrackRegex.Proofs.Regions
import BacktrackRegex.Proofs.Spending

/-! Rollback. An attempt that fails leaves the registers as it found them, one that succeeds has
changed none outside the region it ran in. The rules keep this one by one, so nested visits do. -/
namespace BacktrackRegex

/-- A state before and after an attempt at `p` that led to `r`: failure changed no register, success
none outside the given frames, and the budget went down by so many polls at most. -/
structure Tidy (t : Text) (F : Frame → Prop) (polls p : Nat) (s : MatchState) (r : Option Nat)
    (s' : MatchState) : Prop where
  restored : r = none → s'.regs = s.regs
  shape : s.regs.SameShape s'.regs
  framed : ∀ f, F f → s.regs.AgreeOutside f s'.regs
  forward : ∀ q, r = some q → t.Reaches p q
  spends : s.budget.Spends polls r s'.budget

namespace Tidy

variable {t : Text} {F : Frame → Prop} {polls more p q : Nat} {r : Option Nat}
  {s s₁ s₂ : MatchState}

theorem failure (same : s₁.regs = s.regs) (spends : s.budget.Spends polls none s₁.budget) :
    Tidy t F polls p s none s₁ := by
  constructor
  case restored =>
    intro _
    exact same
  case shape => exact same ▸ .refl _
  case framed =>
    intro _ _
    exact same ▸ .refl _ _
  case forward => simp
  case spends => exact spends

theorem unmoved : Tidy t F polls p s none s := by
  have spends := Budget.Spends.failure s.budget
  exact .failure rfl (spends.mono (Nat.zero_le _))

theorem success (running : s.isHalted = false) : Tidy t F 0 p s (some p) s := by
  constructor
  case restored => simp
  case shape => exact .refl _
  case framed =>
    intro _ _
    exact .refl _ _
  case forward =>
    intro q same
    cases same; exact .refl _ _
  case spends => exact .success _ _ running

theorem mono (tidy : Tidy t F polls p s r s₁) (enough : polls ≤ more) :
    Tidy t F more p s r s₁ := by
  have spends := tidy.spends.mono enough
  exact { tidy with spends }

theorem narrow {E : Frame → Prop} (tidy : Tidy t F polls p s r s₁)
    (weaker : ∀ f, E f → F f) : Tidy t E polls p s r s₁ := by
  refine { tidy with framed := fun f member => ?_ }
  exact tidy.framed f (weaker f member)

theorem later (tidy : Tidy t F polls q s r s₁) (ahead : t.Reaches p q) :
    Tidy t F polls p s r s₁ := by
  refine { tidy with forward := fun stop same => ?_ }
  exact ahead.trans (tidy.forward stop same)

theorem afterFailure (failed : Tidy t F polls p s none s₁) (next : Tidy t F more p s₁ r s₂) :
    Tidy t F (polls + more) p s r s₂ := by
  constructor
  case restored =>
    intro same
    exact (next.restored same).trans (failed.restored rfl)
  case shape => exact failed.shape.trans next.shape
  case framed =>
    intro f member
    exact (failed.framed f member).trans (next.framed f member)
  case forward => exact next.forward
  case spends => exact failed.spends.trans next.spends

theorem thenSuccess (first : Tidy t F polls p s r s₁) (next : Tidy t F more p s₁ (some q) s₂) :
    Tidy t F (polls + more) p s (some q) s₂ := by
  constructor
  case restored => simp
  case shape => exact first.shape.trans next.shape
  case framed =>
    intro f member
    exact (first.framed f member).trans (next.framed f member)
  case forward => exact next.forward
  case spends => exact first.spends.trans next.spends

theorem undo (write back : Registers → Registers)
    (failed : Tidy t F polls p { s with regs := write s.regs } none s₂)
    (inverse : back (write s.regs) = s.regs) :
    Tidy t F polls p s none { s₂ with regs := back s₂.regs } := by
  refine .failure ?_ failed.spends
  change back s₂.regs = s.regs
  rw [failed.restored rfl, inverse]

theorem afterWrite (next : Tidy t F polls p s₁ (some q) s₂) (shape : s.regs.SameShape s₁.regs)
    (framed : ∀ f, F f → s.regs.AgreeOutside f s₁.regs) (budget : s₁.budget = s.budget) :
    Tidy t F polls p s (some q) s₂ := by
  constructor
  case restored => simp
  case shape => exact shape.trans next.shape
  case framed =>
    intro f member
    exact (framed f member).trans (next.framed f member)
  case forward => exact next.forward
  case spends => exact budget ▸ next.spends

end Tidy

def Tidies (g : Graph) (t : Text) (polls : Nat) (visit : Visit) : Prop :=
  ∀ {id p s r s'}, visit id p s = .ok (r, s') → Tidy t (g.Confined id) polls p s r s'

theorem MatchState.proceed_budget {s s' : MatchState} {may : Bool}
    (polled : s.proceed = (may, s')) :
    s'.regs = s.regs ∧ s.budget.poll = (may, s'.budget) := by
  obtain ⟨rfl, rfl⟩ := Prod.mk.inj polled
  exact ⟨rfl, rfl⟩

theorem MatchState.enter_budget {s s' : MatchState} {may : Bool} (entered : s.enter = (may, s')) :
    s'.regs = s.regs ∧ s.budget.enter = (may, s'.budget) := by
  obtain ⟨rfl, rfl⟩ := Prod.mk.inj entered
  exact ⟨rfl, rfl⟩

theorem proceed_tidy {t : Text} {F : Frame → Prop} {p : Nat} {s s' : MatchState} {may : Bool}
    (polled : s.proceed = (may, s')) : Tidy t F 1 p s none s' := by
  obtain ⟨same, answer⟩ := MatchState.proceed_budget polled
  exact .failure same (Budget.poll_spends answer)

section Rules

variable {g : Graph} {t : Text} {visit : Visit} {polls : Nat} {F : Frame → Prop}

theorem firstSuccess_tidy (tidies : Tidies g t polls visit) {p : Nat}
    {choices : List (NodeId × Nat)} (confined : ∀ c ∈ choices, ∀ f, F f → g.Confined c.1 f)
    (ahead : ∀ c ∈ choices, t.Reaches p c.2) {s s' : MatchState} {r : Option Nat}
    (ok : firstSuccess visit choices s = .ok (r, s')) :
    Tidy t F (choices.length * (polls + 1)) p s r s' := by
  induction choices generalizing s with
  | nil => cases ok; exact .unmoved
  | cons choice rest ih =>
    obtain ⟨id, q⟩ := choice
    have cost : (rest.length + 1) * (polls + 1) = 1 + polls + rest.length * (polls + 1) := by
      rw [Nat.succ_mul]; omega
    rw [List.length_cons, cost]
    unfold firstSuccess at ok
    split at ok
    · next polled => cases ok; exact (proceed_tidy polled).mono (by omega)
    · next polled =>
      have first (r s') (answer : visit id q _ = .ok (r, s')) : Tidy t F (1 + polls) p s r s' :=
        (proceed_tidy polled).afterFailure
          (((tidies answer).narrow (confined (id, q) List.mem_cons_self)).later
            (ahead (id, q) List.mem_cons_self))
      obtain ⟨stop, rfl, answer⟩ | ⟨middle, answer, next⟩ := Attempted.orElse_success ok
      · exact (first _ _ answer).mono (Nat.le_add_right _ _)
      · exact (first _ _ answer).afterFailure (ih (fun c member => confined c (by simp [member]))
          (fun c member => ahead c (by simp [member])) next)

theorem firstBranch_tidy (tidies : Tidies g t polls visit) {p : Nat} {branches : List NodeId}
    (confined : ∀ b ∈ branches, ∀ f, F f → g.Confined b f) {s s' : MatchState}
    {r : Option Nat} (ok : firstBranch visit branches p s = .ok (r, s')) :
    Tidy t F (branches.length * (polls + 1)) p s r s' := by
  have tidy : Tidy t F ((branches.map (·, p)).length * (polls + 1)) p s r s' :=
    firstSuccess_tidy tidies (by simpa using confined)
      (by simpa using fun _ _ => Text.Reaches.refl t p) ok
  simpa using tidy

theorem firstBranch_restores (tidies : Tidies g t polls visit) {p : Nat} {branches : List NodeId}
    {s s' : MatchState} (failed : firstBranch visit branches p s = .ok (none, s')) :
    s'.regs = s.regs := by
  have tidy := firstBranch_tidy (F := fun _ => False) tidies (fun _ _ _ => False.elim) failed
  exact tidy.restored rfl

theorem setConsumed_undo {p : Nat} {slot : Nat} {prior begun : Option Nat} {s s₁ s₂ s₃ : MatchState}
    (was : s.consumed slot = .ok prior) (wrote : s.setConsumed slot begun = .ok s₁)
    (failed : Tidy t F polls p s₁ none s₂) (undone : s₂.setConsumed slot prior = .ok s₃) :
    Tidy t F polls p s none s₃ := by
  obtain ⟨_, rfl⟩ := MatchState.setConsumed_success.mp wrote
  obtain ⟨_, rfl⟩ := MatchState.setConsumed_success.mp undone
  exact failed.undo (·.putConsumed slot begun) (·.putConsumed slot prior)
    (Registers.putConsumed_back begun (MatchState.consumed_success.mp was))

theorem setConsumed_keep {p q : Nat} {slot : Nat} {begun : Option Nat} {s s₁ s₂ : MatchState}
    (inside : ∀ f, F f → f.slots.contains slot = true)
    (wrote : s.setConsumed slot begun = .ok s₁) (found : Tidy t F polls p s₁ (some q) s₂) :
    Tidy t F polls p s (some q) s₂ := by
  obtain ⟨_, rfl⟩ := MatchState.setConsumed_success.mp wrote
  exact found.afterWrite (Registers.sameShape_putConsumed _ _ _)
    (fun f member => Registers.agreeOutside_putConsumed _ _ (inside f member)) rfl

theorem setCount_undo {p : Nat} {slot prior n : Nat} {s s₁ s₂ s₃ : MatchState}
    (was : s.count slot = .ok prior) (wrote : s.setCount slot n = .ok s₁)
    (failed : Tidy t F polls p s₁ none s₂) (undone : s₂.setCount slot prior = .ok s₃) :
    Tidy t F polls p s none s₃ := by
  obtain ⟨_, rfl⟩ := MatchState.setCount_success.mp wrote
  obtain ⟨_, rfl⟩ := MatchState.setCount_success.mp undone
  exact failed.undo (·.putCount slot n) (·.putCount slot prior)
    (Registers.putCount_back n (MatchState.count_success.mp was))

theorem setCount_keep {p q slot n : Nat} {s s₁ s₂ : MatchState}
    (inside : ∀ f, F f → f.slots.contains slot = true)
    (wrote : s.setCount slot n = .ok s₁) (found : Tidy t F polls p s₁ (some q) s₂) :
    Tidy t F polls p s (some q) s₂ := by
  obtain ⟨_, rfl⟩ := MatchState.setCount_success.mp wrote
  exact found.afterWrite (Registers.sameShape_putCount _ _ _)
    (fun f member => Registers.agreeOutside_putCount _ _ (inside f member)) rfl

theorem guarded_tidy (tidies : Tidies g t polls visit) {c : Prop} [Decidable c] {next : NodeId}
    {p : Nat} (confined : ∀ f, F f → g.Confined next f) {s s' : MatchState} {r : Option Nat}
    (ok : (if c then visit next p s else return (none, s)) = .ok (r, s')) :
    Tidy t F polls p s r s' := by
  split at ok
  · exact (tidies ok).narrow confined
  · cases ok; exact .unmoved

theorem group_tidy (tidies : Tidies g t polls visit) {slot p : Nat} {branches : List NodeId}
    (inside : ∀ f, F f → f.slots.contains slot = true)
    (confined : ∀ b ∈ branches, ∀ f, F f → g.Confined b f) {s s' : MatchState}
    {r : Option Nat} (ok : Attempt.group visit slot branches p s = .ok (r, s')) :
    Tidy t F (branches.length * (polls + 1)) p s r s' := by
  obtain ⟨prior, was, ok⟩ := bind_success ok
  obtain ⟨begun, wrote, ok⟩ := bind_success ok
  obtain ⟨q, rfl, answer⟩ | ⟨rfl, failed, answer, undone⟩ := Attempted.orUndo_success ok
  · exact setConsumed_keep inside wrote (firstBranch_tidy tidies confined answer)
  · exact setConsumed_undo was wrote (firstBranch_tidy tidies confined answer) undone

theorem groupEnd_tidy (tidies : Tidies g t polls visit) {slot p : Nat} {capture : Option Nat}
    {next : NodeId} (inside : ∀ k, capture = some k → ∀ f, F f → f.captures.contains k = true)
    (confined : ∀ f, F f → g.Confined next f) {s s' : MatchState} {r : Option Nat}
    (ok : Attempt.groupEnd visit slot capture next p s = .ok (r, s')) :
    Tidy t F polls p s r s' := by
  cases capture with
  | none => exact (tidies ok).narrow confined
  | some k =>
    obtain ⟨priorStart, wasStart, ok⟩ := bind_success ok
    obtain ⟨priorStop, wasStop, ok⟩ := bind_success ok
    obtain ⟨start, _, ok⟩ := bind_success ok
    obtain ⟨ended, wrote, ok⟩ := bind_success ok
    obtain ⟨_, _, rfl⟩ := MatchState.setGroup_success.mp wrote
    obtain ⟨q, rfl, answer⟩ | ⟨rfl, failed, answer, undone⟩ := Attempted.orUndo_success ok
    · exact ((tidies answer).narrow confined).afterWrite (Registers.sameShape_putGroup _ _ _ _)
        (fun f member => Registers.agreeOutside_putGroup _ _ _ (inside k rfl f member)) rfl
    · obtain ⟨_, _, rfl⟩ := MatchState.setGroup_success.mp undone
      exact ((tidies answer).narrow confined).undo (·.putGroup k start (some p))
        (·.putGroup k priorStart priorStop) (Registers.putGroup_back _ _
          (MatchState.groupStart_success.mp wasStart) (MatchState.groupStop_success.mp wasStop))

theorem iterate_tidy (tidies : Tidies g t polls visit) {l : Loop} {p : Nat}
    (inside : ∀ f, F f → f.slots.contains l.slot = true)
    (body : ∀ f, F f → g.Confined l.body f) {s s' : MatchState} {r : Option Nat}
    (ok : Attempt.iterate visit l p s = .ok (r, s')) : Tidy t F (1 + polls) p s r s' := by
  unfold Attempt.iterate at ok
  split at ok
  · next polled => cases ok; exact (proceed_tidy polled).mono (Nat.le_add_right _ _)
  · next polled =>
    refine (proceed_tidy polled).afterFailure ?_
    obtain ⟨prior, was, ok⟩ := bind_success ok
    obtain ⟨begun, wrote, ok⟩ := bind_success ok
    obtain ⟨q, rfl, answer⟩ | ⟨rfl, failed, answer, undone⟩ := Attempted.orUndo_success ok
    · exact setConsumed_keep inside wrote ((tidies answer).narrow body)
    · exact setConsumed_undo was wrote ((tidies answer).narrow body) undone

theorem repeatStep_tidy (tidies : Tidies g t polls visit) {l : Loop} {p : Nat}
    (inside : ∀ f, F f → f.slots.contains l.slot = true)
    (body : ∀ f, F f → g.Confined l.body f) (next : ∀ f, F f → g.Confined l.next f)
    {s s' : MatchState} {r : Option Nat} (ok : Attempt.repeatStep visit l p s = .ok (r, s')) :
    Tidy t F (2 * (polls + 1)) p s r s' := by
  obtain ⟨n, _, ok⟩ := bind_success ok
  dsimp only at ok
  have again {s s' : MatchState} {r : Option Nat}
      (ok : (if belowMax n l.max then Attempt.iterate visit l p s else return (none, s)) =
        .ok (r, s')) : Tidy t F (1 + polls) p s r s' := by
    split at ok
    · exact iterate_tidy tidies inside body ok
    · cases ok; exact .unmoved
  split at ok
  · obtain ⟨q, rfl, answer⟩ | ⟨failed, answer, rest⟩ := Attempted.orElse_success ok
    · exact (again answer).mono (by omega)
    · exact ((again answer).afterFailure (guarded_tidy tidies next rest)).mono (by omega)
  · split at ok
    · obtain ⟨q, rfl, answer⟩ | ⟨failed, answer, rest⟩ := Attempted.orElse_success ok
      · exact ((tidies answer).narrow next).mono (by omega)
      · exact (((tidies answer).narrow next).afterFailure (again rest)).mono (by omega)
    · exact (again ok).mono (by omega)

theorem repeatStep_restores (tidies : Tidies g t polls visit) {l : Loop} {p : Nat}
    {s s' : MatchState} (failed : Attempt.repeatStep visit l p s = .ok (none, s')) :
    s'.regs = s.regs := by
  have tidy := repeatStep_tidy (F := fun _ => False) tidies (fun _ => False.elim)
    (fun _ => False.elim) (fun _ => False.elim) failed
  exact tidy.restored rfl

theorem loop_tidy (tidies : Tidies g t polls visit) {l : Loop} {p : Nat}
    (inside : ∀ f, F f → f.slots.contains l.slot = true)
    (body : ∀ f, F f → g.Confined l.body f) (next : ∀ f, F f → g.Confined l.next f)
    {s s' : MatchState} {r : Option Nat} (ok : Attempt.loop visit l p s = .ok (r, s')) :
    Tidy t F (2 * (polls + 1)) p s r s' := by
  obtain ⟨priorCount, wasCount, ok⟩ := bind_success ok
  obtain ⟨prior, was, ok⟩ := bind_success ok
  obtain ⟨counted, wroteCount, ok⟩ := bind_success ok
  obtain ⟨begun, wrote, ok⟩ := bind_success ok
  obtain ⟨q, rfl, answer⟩ | ⟨rfl, failed, answer, undone⟩ := Attempted.orUndo_success ok
  · exact setCount_keep inside wroteCount
      (setConsumed_keep inside wrote (repeatStep_tidy tidies inside body next answer))
  · obtain ⟨middle, undoneCount, undone⟩ := bind_success undone
    have tidy := repeatStep_tidy tidies inside body next answer
    obtain ⟨_, rfl⟩ := MatchState.setCount_success.mp wroteCount
    obtain ⟨_, rfl⟩ := MatchState.setConsumed_success.mp wrote
    obtain ⟨_, rfl⟩ := MatchState.setCount_success.mp undoneCount
    obtain ⟨_, rfl⟩ := MatchState.setConsumed_success.mp undone
    have counts := Registers.putCount_back 0 (MatchState.count_success.mp wasCount)
    have consumed := Registers.putConsumed_back none (MatchState.consumed_success.mp was)
    refine tidy.undo (fun r => (r.putCount l.slot 0).putConsumed l.slot none)
      (fun r => (r.putCount l.slot priorCount).putConsumed l.slot prior) ?_
    calc
      _ = (((s.regs.putCount l.slot 0).putCount l.slot priorCount).putConsumed l.slot
          none).putConsumed l.slot prior := rfl
      _ = s.regs := by rw [counts, consumed]

theorem loopTail_tidy (tidies : Tidies g t polls visit) {l : Loop} {p : Nat}
    (inside : ∀ f, F f → f.slots.contains l.slot = true)
    (body : ∀ f, F f → g.Confined l.body f) (next : ∀ f, F f → g.Confined l.next f)
    {s s' : MatchState} {r : Option Nat} (ok : Attempt.loopTail visit l p s = .ok (r, s')) :
    Tidy t F (2 * (polls + 1)) p s r s' := by
  obtain ⟨began, _, ok⟩ := bind_success ok
  split at ok
  · exact ((tidies ok).narrow next).mono (by omega)
  · obtain ⟨n, was, ok⟩ := bind_success ok
    obtain ⟨counted, wrote, ok⟩ := bind_success ok
    obtain ⟨q, rfl, answer⟩ | ⟨rfl, failed, answer, undone⟩ := Attempted.orUndo_success ok
    · exact setCount_keep inside wrote (repeatStep_tidy tidies inside body next answer)
    · exact setCount_undo was wrote (repeatStep_tidy tidies inside body next answer) undone

/-- A commit keeps what a branch wrote, so if the match fails after it, the frame around the
branches is put back as a whole. -/
theorem restoreFrame_undo {p : Nat} {slot : Nat} {prior begun : Option Nat} {inner : Frame}
    {s s₁ s₂ s₃ s₄ : MatchState} {saved : Registers} (was : s.consumed slot = .ok prior)
    (kept : s.save inner = .ok saved) (wrote : s.setConsumed slot begun = .ok s₁)
    (committed : s₁.regs.AgreeOutside inner s₂.regs) (restored : s₃.regs = s₂.regs)
    (undone : (s₃.restoreFrame inner saved).setConsumed slot prior = .ok s₄)
    (spends : s.budget.Spends polls none s₃.budget) : Tidy t F polls p s none s₄ := by
  obtain ⟨_, rfl⟩ := MatchState.setConsumed_success.mp wrote
  obtain ⟨_, rfl⟩ := MatchState.setConsumed_success.mp undone
  have same : saved = s.regs := by
    unfold MatchState.save at kept
    split at kept <;> cases kept
    rfl
  have entry := MatchState.consumed_success.mp was
  refine .failure ?_ spends
  change (s₃.regs.restoreFrame inner saved).putConsumed slot prior = s.regs
  rw [same, restored, Registers.restoreFrame_putConsumed _ _ _ _ _ entry]
  exact Registers.restoreFrame_eq (Registers.agreeOutside_of_putConsumed committed entry)

theorem committed_tidy (tidies : Tidies g t polls visit) {p : Nat} {branches : List NodeId}
    {inner : Frame} (enclosed : ∀ b ∈ branches, g.Confined b inner) {s s' : MatchState}
    {r : Option Nat} (ok : firstBranch visit branches p s = .ok (r, s')) :
    Tidy t (· = inner) (branches.length * (polls + 1)) p s r s' := by
  apply firstBranch_tidy tidies _ ok
  rintro b member f rfl
  exact enclosed b member

theorem atomic_tidy (tidies : Tidies g t polls visit) {slot p : Nat} {branches : List NodeId}
    {inner : Frame} {next : NodeId} (enclosed : ∀ b ∈ branches, g.Confined b inner)
    (inside : ∀ f, F f → f.slots.contains slot = true)
    (confined : ∀ b ∈ next :: branches, ∀ f, F f → g.Confined b f) {s s' : MatchState}
    {r : Option Nat} (ok : Attempt.atomic visit slot branches inner next p s = .ok (r, s')) :
    Tidy t F ((branches.length + 1) * (polls + 1)) p s r s' := by
  rw [Nat.succ_mul]
  obtain ⟨prior, was, ok⟩ := bind_success ok
  obtain ⟨saved, kept, ok⟩ := bind_success ok
  obtain ⟨begun, wrote, ok⟩ := bind_success ok
  obtain ⟨⟨found, middle⟩, answer, ok⟩ := bind_success ok
  have branch := firstBranch_tidy tidies
    (fun b member => confined b (List.mem_cons_of_mem _ member)) answer
  have spent : s.budget.Spends (branches.length * (polls + 1)) found middle.budget := by
    obtain ⟨_, rfl⟩ := MatchState.setConsumed_success.mp wrote
    exact branch.spends
  cases found with
  | none =>
    obtain ⟨after, undone, same⟩ := bind_success ok
    cases pure_success same
    exact (setConsumed_undo was wrote branch undone).mono (by omega)
  | some commit =>
    obtain ⟨q, rfl, rest⟩ | ⟨rfl, failed, rest, undone⟩ := Attempted.orUndo_success ok
    · have after := ((tidies rest).narrow (confined next (by simp))).later
        (branch.forward commit rfl)
      have found := setConsumed_keep inside wrote branch
      exact (found.thenSuccess after).mono (by omega)
    · have committed := committed_tidy tidies enclosed answer
      exact restoreFrame_undo was kept wrote (committed.framed inner rfl)
        ((tidies rest).restored rfl) undone ((spent.trans (tidies rest).spends).mono (by omega))

theorem lookAhead_tidy (tidies : Tidies g t polls visit) {slot p : Nat} {negative : Bool}
    {branches : List NodeId} {inner : Frame} {next : NodeId}
    (enclosed : ∀ b ∈ branches, g.Confined b inner)
    (inside : ∀ f, F f → f.slots.contains slot = true)
    (confined : ∀ b ∈ next :: branches, ∀ f, F f → g.Confined b f) {s s' : MatchState}
    {r : Option Nat}
    (ok : Attempt.lookAhead visit slot negative branches inner next p s = .ok (r, s')) :
    Tidy t F ((branches.length + 1) * (polls + 1)) p s r s' := by
  rw [Nat.succ_mul]
  obtain ⟨prior, was, ok⟩ := bind_success ok
  obtain ⟨saved, kept, ok⟩ := bind_success ok
  obtain ⟨begun, wrote, ok⟩ := bind_success ok
  obtain ⟨⟨found, middle⟩, answer, last⟩ := bind_success ok
  have branch := firstBranch_tidy tidies
    (fun b member => confined b (List.mem_cons_of_mem _ member)) answer
  have committed := committed_tidy tidies enclosed answer
  obtain ⟨_, rfl⟩ := MatchState.setConsumed_success.mp wrote
  have spent := branch.spends
  obtain ⟨q, rfl, rest⟩ | ⟨rfl, failed, rest, undone⟩ := Attempted.orUndo_success last
  -- What follows begins at `p` again, so where the branch ended is of no account.
  · have after := guarded_tidy tidies (confined next (by simp)) rest
    have whole := (branch.thenSuccess after).afterWrite
      (Registers.sameShape_putConsumed s.regs slot (some p))
      (fun f member => Registers.agreeOutside_putConsumed _ _ (inside f member)) rfl
    exact whole.mono (by omega)
  · have after := guarded_tidy tidies (confined next (by simp)) rest
    exact restoreFrame_undo was kept wrote (committed.framed inner rfl) (after.restored rfl)
      undone ((spent.trans after.spends).mono (by omega))

theorem leafLoopGreedy_tidy (tidies : Tidies g t polls visit) {leaf : Attempt.LeafEnd}
    (forward : ∀ {p q}, leaf p = .ok (some q) → t.Reaches p q) {min p : Nat} {max : Option Nat}
    {next : NodeId} (confined : ∀ f, F f → g.Confined next f)
    {s s' : MatchState} {r : Option Nat}
    (ok : Attempt.leafLoopGreedy visit t leaf min max next p s = .ok (r, s')) :
    Tidy t F ((Attempt.iterationsWithin t p max + 1) * (polls + 1)) p s r s' := by
  obtain ⟨ends, reached, ok⟩ := bind_success ok
  have choice : ∀ c ∈ (ends.drop min).reverse.map (next, ·), c.1 = next ∧ t.Reaches p c.2 := by
    intro c member
    obtain ⟨q, later, rfl⟩ := List.mem_map.mp member
    exact ⟨rfl, Attempt.reaches_of_mem_leafEnds forward reached
      (List.mem_of_mem_drop (List.mem_reverse.mp later))⟩
  have tidy := firstSuccess_tidy tidies
    (fun c member f inside => (choice c member).1 ▸ confined f inside)
    (fun c member => (choice c member).2) ok
  have count := Attempt.leafEnds_length reached
  refine tidy.mono (Nat.mul_le_mul_right _ ?_)
  rw [List.length_map, List.length_reverse, List.length_drop]
  omega

theorem polled_tidy (tidies : Tidies g t polls visit) {c : Prop} [Decidable c] {next : NodeId}
    {p : Nat} (confined : ∀ f, F f → g.Confined next f) {s s₁ s' : MatchState} {r : Option Nat}
    (polled : s.proceed = (true, s₁))
    (ok : (if c then visit next p s₁ else return (none, s₁)) = .ok (r, s')) :
    Tidy t F (1 + polls) p s r s' := by
  have counted := proceed_tidy (t := t) (F := F) (p := p) polled
  have visited := guarded_tidy tidies confined ok
  exact counted.afterFailure visited

theorem leafLoopReluctant_tidy (tidies : Tidies g t polls visit) {leaf : Attempt.LeafEnd}
    (forward : ∀ {p q}, leaf p = .ok (some q) → t.Reaches p q)
    {next : NodeId} (confined : ∀ f, F f → g.Confined next f) {n required p : Nat}
    {s s' : MatchState} {r : Option Nat}
    (ok : Attempt.leafLoopReluctant visit leaf next n required p s = .ok (r, s')) :
    Tidy t F ((n + 1) * (polls + 1)) p s r s' := by
  induction n generalizing required p s with
  | zero =>
    unfold Attempt.leafLoopReluctant at ok
    split at ok
    · next polled => cases ok; exact (proceed_tidy polled).mono (by omega)
    · next polled =>
      obtain ⟨q, rfl, answer⟩ | ⟨failed, answer, rest⟩ := Attempted.orElse_success ok
      · exact (polled_tidy tidies confined polled answer).mono (by omega)
      · cases rest
        exact (polled_tidy tidies confined polled answer).mono (by omega)
  | succ n ih =>
    rw [Nat.succ_mul]
    unfold Attempt.leafLoopReluctant at ok
    split at ok
    · next polled => cases ok; exact (proceed_tidy polled).mono (by omega)
    · next polled =>
      obtain ⟨q, rfl, answer⟩ | ⟨failed, answer, rest⟩ := Attempted.orElse_success ok
      · exact (polled_tidy tidies confined polled answer).mono (by omega)
      · have first := polled_tidy tidies confined polled answer
        obtain ⟨found, reached, rest⟩ := bind_success rest
        cases found with
        | none => cases rest; exact first.mono (by omega)
        | some stop =>
          dsimp only at rest
          split at rest
          · exact (first.afterFailure ((ih rest).later (forward reached))).mono (by omega)
          · cases rest; exact first.mono (by omega)

def Graph.width (g : Graph) (t : Text) : Nat := (g.nodes.toList.flatMap g.links).length + t.size + 2

theorem Graph.width_ge {t : Text} {id : NodeId} {n : Node} (node : g.nodes[id]? = some n) :
    (g.links n).length + t.size + 2 ≤ g.width t := by
  have member : n ∈ g.nodes.toList := Array.mem_toList_iff.mpr (Array.mem_of_getElem? node)
  have := (List.sublist_flatten_of_mem (List.mem_map_of_mem (f := g.links) member)).length_le
  rw [← List.flatMap_def] at this
  unfold width
  omega

theorem leaf_tidy (tidies : Tidies g t polls visit) {id p : Nat} {next : NodeId}
    {s s' : MatchState} {r : Option Nat} (narrow : ∀ f, g.Confined id f → g.Confined next f)
    (ok : (do match ← g.leafEnd t s id p with
            | some stop => visit next stop s
            | none => return (none, s)) = Except.ok (r, s')) :
    Tidy t (g.Confined id) polls p s r s' := by
  obtain ⟨found, reached, ok⟩ := bind_success ok
  cases found with
  | none => cases ok; exact .unmoved
  | some stop => exact ((tidies ok).narrow narrow).later (Graph.leafEnd_reaches reached)

theorem visitNode_tidy (enclosing : g.Enclosing) (tidies : Tidies g t polls visit) {id p : Nat}
    {s s' : MatchState} {r : Option Nat} (running : s.isHalted = false)
    (ok : g.visitNode t visit id p s = .ok (r, s')) :
    Tidy t (g.Confined id) (g.width t * (polls + 1)) p s r s' := by
  obtain ⟨n, found, ok⟩ := bind_success ok
  have node := Graph.node_success.mp found
  have wide := Graph.width_ge (t := t) node
  have fits {k : Nat} (enough : k ≤ (g.links n).length + t.size + 2)
      (tidy : Tidy t (g.Confined id) (k * (polls + 1)) p s r s') :
      Tidy t (g.Confined id) (g.width t * (polls + 1)) p s r s' :=
    tidy.mono (Nat.mul_le_mul_right _ (Nat.le_trans enough wide))
  have link {m : NodeId} (member : m ∈ g.links n) : ∀ f, g.Confined id f → g.Confined m f :=
    fun f confined => confined.link node member
  cases n with
  | succeed | commit slot => cases ok; exact (Tidy.success running).mono (Nat.zero_le _)
  | literal text ignoreCase next | charClass members next | backReference k ignoreCase next
  | anchor condition next =>
    have tidy := leaf_tidy tidies (link (by simp [Graph.links])) ok
    exact fits (k := 1) (by omega) (tidy.mono (by omega))
  | sequence children next =>
    have tidy := (tidies ok).narrow (link (by simp [Graph.links]))
    exact fits (k := 1) (by omega) (tidy.mono (by omega))
  | group slot capture branches next =>
    have tidy := group_tidy tidies (fun f confined => confined.slot node rfl)
      (fun b member => link member) ok
    exact fits (by simp only [Graph.links]; omega) tidy
  | groupEnd slot capture next =>
    have tidy := groupEnd_tidy tidies (fun k same f confined => confined.capture node same)
      (link (by simp [Graph.links])) ok
    exact fits (k := 1) (by omega) (tidy.mono (by omega))
  | loop l =>
    have tidy := loop_tidy tidies (fun f confined => confined.slot node rfl)
      (link (by simp [Graph.links])) (link (by simp [Graph.links])) ok
    exact fits (by simp [Graph.links]) tidy
  | loopTail owner =>
    obtain ⟨found, owned, ok⟩ := bind_success ok
    cases found with
    | none => cases ok; exact .unmoved
    | some l =>
      have owner := Graph.loopAt_success owned
      have tidy := loopTail_tidy tidies
        (fun f confined => confined.slot node (by simp [Graph.slot?, owner]))
        (link (by simp [Graph.links, owner])) (link (by simp [Graph.links, owner])) ok
      exact fits (k := 2) (by omega) tidy
  | leafLoop leaf min max greedy next =>
    have within : Attempt.iterationsWithin t p max ≤ t.size + 1 := by
      have left : t.size - p + 1 ≤ t.size + 1 := Nat.succ_le_succ (Nat.sub_le _ _)
      cases max with
      | none => exact left
      | some k => exact Nat.le_trans (Nat.min_le_left _ k) left
    have confined := link (m := next) (by simp [Graph.links])
    dsimp only at ok
    split at ok
    · exact fits (by omega) (leafLoopGreedy_tidy tidies Graph.leafEnd_reaches confined ok)
    · exact fits (by omega) (leafLoopReluctant_tidy tidies Graph.leafEnd_reaches confined ok)
  | atomic slot branches inner next =>
    have tidy := atomic_tidy tidies (enclosing node rfl)
      (fun f confined => confined.slot node rfl) (fun b member => link member) ok
    exact fits (by simp only [Graph.links, List.length_cons]; omega) tidy
  | lookAhead slot negative branches inner next =>
    have tidy := lookAhead_tidy tidies (enclosing node rfl)
      (fun f confined => confined.slot node rfl) (fun b member => link member) ok
    exact fits (by simp only [Graph.links, List.length_cons]; omega) tidy

end Rules

def Graph.pollBound (g : Graph) (t : Text) : Nat → Nat
  | 0 => 0
  | depth + 1 => g.width t * (g.pollBound t depth + 1)

/-- Whatever a visit of whatever node leads to, it is tidy. -/
theorem attemptWithin_tidy {g : Graph} {t : Text} (enclosing : g.Enclosing) (depth : Nat) :
    Tidies g t (g.pollBound t depth) (g.attemptWithin t depth) := by
  induction depth with
  | zero => intro _ _ _ _ _ ok; cases ok
  | succ depth ih =>
    intro id p s r s' ok
    unfold Graph.attemptWithin at ok
    split at ok
    · next entered =>
      cases ok
      obtain ⟨same, budget⟩ := MatchState.enter_budget entered
      exact .failure same ((Budget.enter_halted budget).2.mono (Nat.zero_le _))
    · next s₁ entered =>
      obtain ⟨same, budget⟩ := MatchState.enter_budget entered
      obtain ⟨⟨stop, after⟩, visited, last⟩ := bind_success ok
      cases pure_success last
      obtain ⟨running, _, took⟩ := Budget.enter_granted budget
      have inside : s₁.isHalted = false := by
        rw [MatchState.isHalted, took]
        exact running
      have tidy := visitNode_tidy enclosing ih inside visited
      exact { restored := fun failed => (tidy.restored failed).trans same
              shape := same ▸ tidy.shape
              framed := fun f confined => same ▸ tidy.framed f confined
              forward := tidy.forward
              spends := tidy.spends.visit budget }

end BacktrackRegex
