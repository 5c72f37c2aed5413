import BacktrackRegex.Expr.Variants
import BacktrackRegex.Proofs.Counted

/-! Which ways there are, whatever their order. Switching repetitions between greedy and reluctant
keeps them, giving commitments up keeps them and may add others. What matches is found all the same,
at the same offset or, if ways were added, at an earlier one. -/
namespace BacktrackRegex

theorem mem_iterations_succ {body : Nat → Holdings → List Way} {greedy : Bool} {min : Nat}
    {max : Option Nat} {steps n p : Nat} {held : Holdings} {way : Way} :
    way ∈ iterations body greedy min max (steps + 1) n p held ↔
      (max.all (n < ·) = true ∧ ∃ first ∈ body p held, way ∈ if first.1 = p then [first] else
        iterations body greedy min max steps (n + 1) first.1 first.2) ∨
      min ≤ n ∧ way = (p, held) := by
  have more : way ∈ (if max.all (n < ·) then (body p held).flatMap (fun first =>
        if first.1 = p then [first] else
          iterations body greedy min max steps (n + 1) first.1 first.2) else []) ↔
      max.all (n < ·) = true ∧ ∃ first ∈ body p held, way ∈ if first.1 = p then [first] else
        iterations body greedy min max steps (n + 1) first.1 first.2 := by
    rw [List.mem_ite_nil_right, List.mem_flatMap]
  have enough : way ∈ (if min ≤ n then [(p, held)] else []) ↔ min ≤ n ∧ way = (p, held) := by
    rw [List.mem_ite_nil_right, List.mem_singleton]
  cases greedy with
  | true => exact List.mem_append.trans (or_congr more enough)
  | false => exact List.mem_append.trans (Or.comm.trans (or_congr more enough))

theorem iterations_subset {body body' : Nat → Holdings → List Way}
    (sub : ∀ p held, body p held ⊆ body' p held) {greedy greedy' : Bool} {min : Nat}
    {max : Option Nat} {steps n p : Nat} {held : Holdings} :
    iterations body greedy min max steps n p held ⊆
      iterations body' greedy' min max steps n p held := by
  induction steps generalizing n p held with
  | zero => simp [iterations]
  | succ steps ih =>
    intro way member
    rw [mem_iterations_succ] at member ⊢
    refine member.imp_left ?_
    rintro ⟨room, first, found, rest⟩
    refine ⟨room, first, sub p held found, ?_⟩
    split at rest
    · next here => rwa [if_pos here]
    · next moved => rw [if_neg moved]; exact ih rest

namespace Expr

variable {t : Text} {origin : Nat}

/-- All ways of `e` are ways of `e'`, whose capture groups have the same numbers. -/
structure Covers (t : Text) (origin : Nat) (e e' : Expr) : Prop where
  captures : e'.captureCount = e.captureCount
  ways : ∀ cap p held, e.ways t origin cap p held ⊆ e'.ways t origin cap p held

namespace Covers

variable {e e' : Expr} {es es' : List Expr}

theorem refl (e : Expr) : Covers t origin e e := by
  constructor
  case captures => rfl
  case ways => exact fun _ _ _ => List.Subset.refl _

theorem captureCountAll_eq (all : List.Forall₂ (Covers t origin) es es') :
    captureCountAll es' = captureCountAll es := by
  induction all with
  | nil => rfl
  | cons first later ih => rw [captureCountAll, captureCountAll, first.captures, ih]

theorem waysAll (all : List.Forall₂ (Covers t origin) es es') (cap p : Nat) (held : Holdings) :
    waysAll t origin es cap p held ⊆ Expr.waysAll t origin es' cap p held := by
  induction all generalizing cap p held with
  | nil => exact List.Subset.refl _
  | cons first later ih =>
    intro way member
    simp only [Expr.waysAll, List.mem_flatMap, first.captures] at member ⊢
    obtain ⟨between, found, rest⟩ := member
    exact ⟨between, first.ways cap p held found, ih _ _ _ rest⟩

theorem waysAny (all : List.Forall₂ (Covers t origin) es es') (cap p : Nat) (held : Holdings) :
    waysAny t origin es cap p held ⊆ Expr.waysAny t origin es' cap p held := by
  induction all generalizing cap p held with
  | nil => exact List.Subset.refl _
  | cons first later ih =>
    intro way member
    simp only [Expr.waysAny, List.mem_append, first.captures] at member ⊢
    exact member.imp (first.ways cap p held ·) (ih _ _ _ ·)

theorem concat (all : List.Forall₂ (Covers t origin) es es') :
    Covers t origin (.concat es) (.concat es') := by
  constructor
  case captures => simp only [Expr.captureCount, captureCountAll_eq all]
  case ways =>
    intro cap p held
    simp only [Expr.ways]
    exact waysAll all cap p held

theorem alternation (all : List.Forall₂ (Covers t origin) es es') :
    Covers t origin (.alternation es) (.alternation es') := by
  constructor
  case captures => simp only [Expr.captureCount, captureCountAll_eq all]
  case ways =>
    intro cap p held
    simp only [Expr.ways]
    exact waysAny all cap p held

theorem capture (body : Covers t origin e e') :
    Covers t origin (group .capture e) (group .capture e') := by
  constructor
  case captures => simp only [Expr.captureCount, body.captures]
  case ways =>
    intro cap p held
    simp only [Expr.ways]
    exact List.map_subset _ (body.ways (cap + 1) p held)

theorem nonCapture (body : Covers t origin e e') :
    Covers t origin (group .nonCapture e) (group .nonCapture e') := by
  constructor
  case captures => simp only [Expr.captureCount, body.captures]
  case ways =>
    intro cap p held
    simp only [Expr.ways]
    exact body.ways cap p held

theorem uncommitted (body : Covers t origin e e') :
    Covers t origin (group .atomic e) (group .nonCapture e') := by
  constructor
  case captures => simp [Expr.captureCount, body.captures]
  case ways =>
    intro cap p held
    simp only [Expr.ways]
    exact fun way member => body.ways cap p held (List.mem_of_mem_take member)

theorem lookAhead (plain : e.captureCount = 0) (body : Covers t origin e e') :
    Covers t origin (group .lookAhead e) (group .lookAhead e') := by
  constructor
  case captures => simp only [Expr.captureCount, body.captures]
  case ways =>
    intro cap p held
    have plain' : e'.captureCount = 0 := body.captures.trans plain
    intro way member
    simp only [Expr.ways, List.mem_map] at member ⊢
    obtain ⟨first, found, rfl⟩ := member
    have found := List.mem_of_mem_take found
    cases rest : e'.ways t origin cap p held with
    | nil => exact absurd (body.ways cap p held found) (rest ▸ List.not_mem_nil)
    | cons first' later =>
      refine ⟨first', List.mem_cons_self, ?_⟩
      rw [ways_held e plain found, ways_held e' plain' (rest ▸ List.mem_cons_self)]

theorem negativeLookAhead (captures : e'.captureCount = e.captureCount)
    (back : ∀ cap p held, e'.ways t origin cap p held ⊆ e.ways t origin cap p held) :
    Covers t origin (group .negativeLookAhead e) (group .negativeLookAhead e') := by
  constructor
  case captures => simp only [Expr.captureCount, captures]
  case ways =>
    intro cap p held
    simp only [Expr.ways]
    intro way member
    split at member
    · next noWay =>
      have noWay' := back cap p held
      rw [List.isEmpty_iff.mp noWay, List.subset_nil] at noWay'
      rwa [noWay', List.isEmpty_nil, if_pos rfl]
    · cases member

theorem repetition {min : Nat} {max : Option Nat} {kind kind' : RepeatKind}
    (givesBack : kind' ≠ .possessive) (body : Covers t origin e e') :
    Covers t origin (.repetition e min max kind) (.repetition e' min max kind') := by
  constructor
  case captures => simp only [Expr.captureCount, body.captures]
  case ways =>
    intro cap p held
    simp only [Expr.ways, if_neg givesBack]
    split
    · exact List.Subset.refl _
    · have all {greedy greedy' : Bool} {steps : Nat} :
          iterations (e.ways t origin cap) greedy min max steps 0 p held ⊆
            iterations (e'.ways t origin cap) greedy' min max steps 0 p held :=
        iterations_subset (body.ways cap)
      split
      · exact fun way member => all (List.mem_of_mem_take member)
      · exact all

end Covers

section Rekind

variable {groups : GroupKind → GroupKind} {repeats : Path → RepeatKind → RepeatKind}
variable {captures : Nat}

mutual
theorem rekind_captureCount (keeps : ∀ kind, groups kind = .capture ↔ kind = .capture) :
    ∀ (e : Expr) {repeats : Path → RepeatKind → RepeatKind},
      (e.rekind groups repeats).captureCount = e.captureCount
  | empty, _ | literal .., _ | charClass _, _ | anchor _, _ | backReference .., _ => rfl
  | concat items, _ | alternation items, _ => by
    simp only [rekind, captureCount, rekindAll_captureCount keeps items]
  | group kind body, _ => by
    simp only [rekind, captureCount, rekind_captureCount keeps body, keeps]
  | repetition body min max kind, _ => by
    simp only [rekind, captureCount, rekind_captureCount keeps body]
theorem rekindAll_captureCount (keeps : ∀ kind, groups kind = .capture ↔ kind = .capture) :
    ∀ (es : List Expr) {repeats : Path → RepeatKind → RepeatKind} {i : Nat},
      captureCountAll (rekindAll groups repeats i es) = captureCountAll es
  | [], _, _ => rfl
  | e :: es, _, _ => by
    simp only [rekindAll, captureCountAll, rekind_captureCount keeps e,
      rekindAll_captureCount keeps es]
end

mutual
theorem rekind_check : ∀ (e : Expr) {repeats : Path → RepeatKind → RepeatKind},
    (e.rekind groups repeats).check captures = e.check captures
  | empty, _ | literal .., _ | charClass _, _ | anchor _, _ | backReference .., _ => rfl
  | concat items, _ => by simp only [rekind, check, rekindAll_check items]
  | alternation [], _ => rfl
  | alternation (e :: es), repeats => by
    have all : checkAll captures (rekindAll groups repeats 0 (e :: es)) =
        checkAll captures (e :: es) := rekindAll_check (e :: es)
    simp only [rekindAll] at all
    simp only [rekind, rekindAll, check, all, List.isEmpty_cons]
  | group kind body, _ => by simp only [rekind, check, rekind_check body]
  | repetition body min max kind, _ => by cases max <;> simp only [rekind, check, rekind_check body]
theorem rekindAll_check : ∀ (es : List Expr) {repeats : Path → RepeatKind → RepeatKind} {i : Nat},
    checkAll captures (rekindAll groups repeats i es) = checkAll captures es
  | [], _, _ => rfl
  | e :: es, _, _ => by simp only [rekindAll, checkAll, rekind_check e, rekindAll_check es]
end

theorem rekind_compile (keeps : ∀ kind, groups kind = .capture ↔ kind = .capture) {e : Expr}
    {g : Graph} (ok : e.compile = .ok g) : ∃ g', (e.rekind groups repeats).compile = .ok g' := by
  apply compile_of_check
  rw [rekind_captureCount keeps, rekind_check]
  exact (compile_compiled ok).checked

mutual
/-- Which iterations a repetition tries first makes no difference to the ways, if no part settles on
the first of several. -/
theorem rekind_same : ∀ (e : Expr) {repeats : Path → RepeatKind → RepeatKind},
    (∀ path kind, kind ≠ .possessive → repeats path kind ≠ .possessive) →
      e.every (!·.commits) = true →
        Covers t origin e (e.rekind id repeats) ∧ Covers t origin (e.rekind id repeats) e
  | empty, _, _, _ | literal .., _, _, _ | charClass _, _, _, _ | anchor _, _, _, _
  | backReference .., _, _, _ => by
    simp only [rekind]
    exact ⟨.refl _, .refl _⟩
  | concat items, _, gives, uncommitted => by
    have ⟨there, back⟩ := rekindAll_same items (i := 0) gives (every_concat.mp uncommitted).2
    exact ⟨.concat there, .concat back⟩
  | alternation branches, _, gives, uncommitted => by
    have ⟨there, back⟩ :=
      rekindAll_same branches (i := 0) gives (every_alternation.mp uncommitted).2
    exact ⟨.alternation there, .alternation back⟩
  | group kind body, repeats, gives, uncommitted => by
    obtain ⟨settled, within⟩ := every_group.mp uncommitted
    have ⟨there, back⟩ := rekind_same body (fun path => gives (0 :: path)) within
    cases kind with
    | capture => exact ⟨.capture there, .capture back⟩
    | nonCapture => exact ⟨.nonCapture there, .nonCapture back⟩
    | atomic => simp [commits] at settled
    | lookAhead =>
      have plain : body.captureCount = 0 := by simpa [commits] using settled
      exact ⟨.lookAhead plain there, .lookAhead (there.captures.trans plain) back⟩
    | negativeLookAhead =>
      exact ⟨.negativeLookAhead there.captures back.ways,
        .negativeLookAhead back.captures there.ways⟩
  | repetition body min max kind, _, gives, uncommitted => by
    obtain ⟨settled, within⟩ := every_repetition.mp uncommitted
    have ⟨there, back⟩ := rekind_same body (fun path => gives (0 :: path)) within
    have plain : kind ≠ .possessive := by
      rintro rfl
      simp [commits] at settled
    exact ⟨.repetition (gives [] kind plain) there, .repetition plain back⟩
theorem rekindAll_same : ∀ (es : List Expr) {repeats : Path → RepeatKind → RepeatKind} {i : Nat},
    (∀ path kind, kind ≠ .possessive → repeats path kind ≠ .possessive) →
      everyAll (!·.commits) es = true →
        List.Forall₂ (Covers t origin) es (rekindAll id repeats i es) ∧
          List.Forall₂ (Covers t origin) (rekindAll id repeats i es) es
  | [], _, _, _, _ => ⟨.nil, .nil⟩
  | e :: es, _, i, gives, uncommitted => by
    obtain ⟨first, later⟩ := every_cons.mp uncommitted
    have ⟨there, back⟩ := rekind_same e (fun path => gives (i :: path)) first
    have ⟨others, others'⟩ := rekindAll_same es (i := i + 1) gives later
    exact ⟨.cons there others, .cons back others'⟩
end

mutual
/-- Without commitments there are all the ways that there were with them, if no part asks which of
its ways there are. -/
theorem rekind_more : ∀ (e : Expr) {repeats : Path → RepeatKind → RepeatKind},
    (∀ path kind, repeats path kind ≠ .possessive) → e.every (!·.discriminates) = true →
      Covers t origin e
        (e.rekind (fun kind => if kind = .atomic then .nonCapture else kind) repeats)
  | empty, _, _, _ | literal .., _, _, _ | charClass _, _, _, _ | anchor _, _, _, _
  | backReference .., _, _, _ => by
    simp only [rekind]
    exact .refl _
  | concat items, _, gives, plain => by
    have all := rekindAll_more items (i := 0) gives (every_concat.mp plain).2
    exact .concat all
  | alternation branches, _, gives, plain => by
    have all := rekindAll_more branches (i := 0) gives (every_alternation.mp plain).2
    exact .alternation all
  | group kind body, _, gives, plain => by
    obtain ⟨asks, within⟩ := every_group.mp plain
    have inner := rekind_more body (fun path => gives (0 :: path)) within
    cases kind with
    | capture => exact .capture inner
    | nonCapture => exact .nonCapture inner
    | atomic => exact .uncommitted inner
    | lookAhead => exact .lookAhead (by simpa [discriminates] using asks) inner
    | negativeLookAhead => simp [discriminates] at asks
  | repetition body min max kind, _, gives, plain => by
    have inner := rekind_more body (fun path => gives (0 :: path)) (every_repetition.mp plain).2
    exact .repetition (gives [] kind) inner
theorem rekindAll_more : ∀ (es : List Expr) {repeats : Path → RepeatKind → RepeatKind} {i : Nat},
    (∀ path kind, repeats path kind ≠ .possessive) → everyAll (!·.discriminates) es = true →
      List.Forall₂ (Covers t origin) es
        (rekindAll (fun kind => if kind = .atomic then .nonCapture else kind) repeats i es)
  | [], _, _, _, _ => .nil
  | e :: es, _, i, gives, plain => by
    obtain ⟨first, later⟩ := every_cons.mp plain
    exact .cons (rekind_more e (fun path => gives (i :: path)) first)
      (rekindAll_more es gives later)
end

end Rekind

def matchesFrom (e : Expr) (t : Text) (origin p : Nat) : Bool :=
  !(e.ways t origin 1 p (.replicate (e.captureCount + 1) none)).isEmpty

theorem Covers.matchesFrom {e e' : Expr} (covers : Covers t origin e e') {p : Nat}
    (found : e.matchesFrom t origin p = true) : e'.matchesFrom t origin p = true := by
  simp only [Expr.matchesFrom, Bool.not_eq_true', List.isEmpty_eq_false_iff_exists_mem,
    covers.captures] at *
  obtain ⟨way, member⟩ := found
  exact ⟨way, covers.ways 1 p _ member⟩

end Expr

def Outcome.Begins (o : Outcome) : Option Nat → Prop
  | none => o = .noMatch
  | some p => ∃ captures stop, o = .matched captures ∧ captures.spans[0]? = some (some ⟨p, stop⟩)

/-- The same for what a match or a search ended with, which is neither a fault nor an error. -/
def Begins (x : Except Fault Verdict) (begun : Option Nat) : Prop :=
  ∃ o, x = .ok (.ok o) ∧ o.Begins begun

namespace Expr.Compiled

variable {e : Expr} {g : Graph} {t : Text} {origin p : Nat}

theorem firstHeld?_begins (compiled : e.Compiled g) (valid : t.isBoundary p = true) :
    (Outcome.ofHeld? t (e.firstHeld? t origin p)).Begins
      (if e.matchesFrom t origin p then some p else none) := by
  have fitted : Fitted g 0 (MatchState.ofGraph g .unlimited).regs := .unset g 0
  have ready : Ready g t origin ((MatchState.ofGraph g .unlimited).reset origin) :=
    MatchState.reset_ready fitted MatchOptions.unlimited_free origin
  obtain ⟨stop, s', _, fitted', _, _, way⟩ := compiled.attempt_eq valid ready
  rw [MatchState.reset, fitted.held_clear, compiled.captures] at way
  rw [firstHeld?, matchesFrom, ← way]
  cases stop with
  | none =>
    have noWay := List.head?_eq_none_iff.mp way.symm
    simp [noWay, Outcome.ofHeld?, Outcome.Begins]
  | some stop =>
    have someWay : e.ways t origin 1 p (.replicate (e.captureCount + 1) none) ≠ [] := by
      intro nothing
      rw [nothing] at way
      cases way
    have sized : 0 < s'.regs.held.length := by
      simp [Registers.held, fitted'.starts, fitted'.ends]
    simp [someWay, Outcome.ofHeld?, Outcome.Begins, sized]

theorem run_begins (compiled : e.Compiled g) (valid : t.isBoundary p = true)
    {options : MatchOptions} (unlimited : options.Unlimited) :
    Begins (g.run t p options) (if e.matchesFrom t p p then some p else none) := by
  refine ⟨_, compiled.run_eq valid unlimited, ?_⟩
  exact compiled.firstHeld?_begins valid

theorem findSome?_begins (compiled : e.Compiled g) {ps : List Nat}
    (valid : ∀ p ∈ ps, t.isBoundary p = true) :
    (Outcome.ofHeld? t (ps.findSome? (e.firstHeld? t origin))).Begins
      (ps.find? (e.matchesFrom t origin)) := by
  induction ps with
  | nil => rfl
  | cons p ps ih =>
    have here : (Outcome.ofHeld? t (e.firstHeld? t origin p)).Begins
        (if e.matchesFrom t origin p then some p else none) :=
      compiled.firstHeld?_begins (valid p List.mem_cons_self)
    rw [List.findSome?_cons, List.find?_cons]
    cases asked : e.matchesFrom t origin p with
    | false =>
      rw [asked] at here
      cases found : e.firstHeld? t origin p with
      | none => exact ih fun q member => valid q (List.mem_cons_of_mem _ member)
      | some held => rw [found] at here; cases here
    | true =>
      rw [asked] at here
      cases found : e.firstHeld? t origin p with
      | none => rw [found] at here; obtain ⟨_, _, none, _⟩ := here; cases none
      | some held => rw [found] at here; exact here

theorem search_begins (compiled : e.Compiled g) (valid : t.isBoundary p = true)
    {options : MatchOptions} (unlimited : options.Unlimited) :
    Begins (g.search t p options) ((t.boundariesFrom p).find? (e.matchesFrom t p)) := by
  refine ⟨_, compiled.search_eq valid unlimited, ?_⟩
  apply compiled.findSome?_begins
  intro q member
  exact (Text.mem_boundariesFrom.mp member).2

end Expr.Compiled

theorem exists_find?_le {xs : List Nat} (sorted : xs.Pairwise (· < ·)) {f f' : Nat → Bool}
    (more : ∀ p, f p = true → f' p = true) {p : Nat} (found : xs.find? f = some p) :
    ∃ q ≤ p, xs.find? f' = some q := by
  induction xs with
  | nil => cases found
  | cons x xs ih =>
    obtain ⟨first, later⟩ := List.pairwise_cons.mp sorted
    rw [List.find?_cons] at found ⊢
    cases here : f' x with
    | true =>
      refine ⟨x, ?_, rfl⟩
      split at found
      · exact Nat.le_of_eq (Option.some.inj found)
      · exact Nat.le_of_lt (first p (List.mem_of_find?_eq_some found))
    | false =>
      have missed : f x = false := by
        cases asked : f x with
        | false => rfl
        | true => rw [more x asked] at here; cases here
      rw [missed] at found
      exact ih later found

theorem Text.boundariesFrom_sorted (t : Text) (p : Nat) :
    (t.boundariesFrom p).Pairwise (· < ·) := by
  apply List.Pairwise.filter
  exact List.pairwise_lt_range' ..

namespace Expr

theorem switch_same {t : Text} {origin : Nat} {e : Expr} (uncommitted : e.every (!·.commits) = true)
    (chosen : Path → Bool) :
    Covers t origin e (e.switch chosen) ∧ Covers t origin (e.switch chosen) e := by
  refine rekind_same e (fun path kind plain => ?_) uncommitted
  split
  · cases kind <;> simp_all [RepeatKind.switched]
  · exact plain

theorem strip_more {t : Text} {origin : Nat} {e : Expr}
    (plain : e.every (!·.discriminates) = true) : Covers t origin e e.strip := by
  refine rekind_more e (fun path kind => ?_) plain
  split
  · simp
  · next other => exact other

/-- If no part settles on one of several ways, whether there is a match and where the first one
begins does not depend on which repetitions are greedy and which are reluctant. -/
theorem switch_keeps_matches {e : Expr} {g : Graph} (ok : e.compile = .ok g)
    (uncommitted : e.every (!·.commits) = true) (chosen : Path → Bool) :
    ∃ g', (e.switch chosen).compile = .ok g' ∧
      ∀ {t : Text} {start : Nat} {options : MatchOptions}, t.isBoundary start = true →
        options.Unlimited →
        (∃ begun, Begins (g.run t start options) begun ∧ Begins (g'.run t start options) begun) ∧
          ∃ begun, Begins (g.search t start options) begun ∧
            Begins (g'.search t start options) begun := by
  obtain ⟨g', ok'⟩ : ∃ g', (e.switch chosen).compile = .ok g' :=
    rekind_compile (fun _ => Iff.rfl) ok
  have compiled := compile_compiled ok
  have compiled' := compile_compiled ok'
  refine ⟨g', ok', fun {t start options} valid unlimited => ?_⟩
  have same : (e.switch chosen).matchesFrom t start = e.matchesFrom t start := by
    funext p
    have same : Covers t start e (e.switch chosen) ∧ Covers t start (e.switch chosen) e :=
      switch_same uncommitted chosen
    exact Bool.eq_iff_iff.mpr ⟨same.2.matchesFrom, same.1.matchesFrom⟩
  refine ⟨⟨_, compiled.run_begins valid unlimited, ?_⟩,
    ⟨_, compiled.search_begins valid unlimited, ?_⟩⟩
  · exact same ▸ compiled'.run_begins valid unlimited
  · exact same ▸ compiled'.search_begins valid unlimited

theorem switch_keeps_matches_shorter : ∃ g g',
    (concat [group .capture (repetition (literal "a" false) 1 none .greedy),
      backReference 1 false, group .negativeLookAhead (literal "b" false)]).compile = .ok g ∧
    (concat [group .capture (repetition (literal "a" false) 1 none .reluctant),
      backReference 1 false, group .negativeLookAhead (literal "b" false)]).compile = .ok g' ∧
    g.search ⟨"xaaaa", by decide⟩ 0 .unlimited =
      .ok (.ok (.matched ⟨⟨"xaaaa", by decide⟩, #[some ⟨1, 5⟩, some ⟨1, 3⟩]⟩)) ∧
    g'.search ⟨"xaaaa", by decide⟩ 0 .unlimited =
      .ok (.ok (.matched ⟨⟨"xaaaa", by decide⟩, #[some ⟨1, 3⟩, some ⟨1, 2⟩]⟩)) ∧
    ∃ begun, Begins (g.search ⟨"xaaaa", by decide⟩ 0 .unlimited) begun ∧
      Begins (g'.search ⟨"xaaaa", by decide⟩ 0 .unlimited) begun := by
  let e := concat [group .capture (repetition (literal "a" false) 1 none .greedy),
    backReference 1 false, group .negativeLookAhead (literal "b" false)]
  obtain ⟨g, ok⟩ : ∃ g, e.compile = .ok g := ⟨_, rfl⟩
  obtain ⟨g', ok', same⟩ := switch_keeps_matches ok (by decide) (· = [0, 0])
  have valid : Text.isBoundary ⟨"xaaaa", by decide⟩ 0 = true := by decide
  refine ⟨g, g', ok, ok', ?_, ?_, (same valid MatchOptions.unlimited_free).2⟩
  · exact ((compile_compiled ok).search_eq valid MatchOptions.unlimited_free).trans
      (by decide +kernel)
  · exact ((compile_compiled ok').search_eq valid MatchOptions.unlimited_free).trans
      (by decide +kernel)

/-- Commitments only prune: whatever matches with them matches without them, and what is found with
them is found without them there or earlier, if no part asks which ways others have. -/
theorem strip_keeps_matches {e : Expr} {g : Graph} (ok : e.compile = .ok g)
    (plain : e.every (!·.discriminates) = true) :
    ∃ g', e.strip.compile = .ok g' ∧
      ∀ {t : Text} {start : Nat} {options : MatchOptions}, t.isBoundary start = true →
        options.Unlimited →
        (∃ begun begun', Begins (g.run t start options) begun ∧
          Begins (g'.run t start options) begun' ∧ ∀ p, begun = some p → begun' = some p) ∧
        ∃ begun begun', Begins (g.search t start options) begun ∧
          Begins (g'.search t start options) begun' ∧
            ∀ p, begun = some p → ∃ p' ≤ p, begun' = some p' := by
  obtain ⟨g', ok'⟩ : ∃ g', e.strip.compile = .ok g' :=
    rekind_compile (fun kind => by cases kind <;> simp) ok
  have compiled := compile_compiled ok
  have compiled' := compile_compiled ok'
  refine ⟨g', ok', fun {t start options} valid unlimited => ?_⟩
  have more (p : Nat) : e.matchesFrom t start p = true → e.strip.matchesFrom t start p = true :=
    (strip_more plain).matchesFrom
  refine ⟨⟨_, _, compiled.run_begins valid unlimited, compiled'.run_begins valid unlimited, ?_⟩,
    _, _, compiled.search_begins valid unlimited, compiled'.search_begins valid unlimited, ?_⟩
  · intro p found
    split at found
    · next here => rwa [if_pos (more start here)]
    · cases found
  · intro p found
    exact exists_find?_le (Text.boundariesFrom_sorted t start) more found

theorem strip_keeps_matches_earlier : ∃ g g',
    (concat [group .atomic (alternation [literal "a" false, literal "ab" false]),
      repetition (literal "c" false) 1 none .possessive]).compile = .ok g ∧
    (concat [group .nonCapture (alternation [literal "a" false, literal "ab" false]),
      repetition (literal "c" false) 1 none .greedy]).compile = .ok g' ∧
    g.search ⟨"abcac", by decide⟩ 0 .unlimited =
      .ok (.ok (.matched ⟨⟨"abcac", by decide⟩, #[some ⟨3, 5⟩]⟩)) ∧
    g'.search ⟨"abcac", by decide⟩ 0 .unlimited =
      .ok (.ok (.matched ⟨⟨"abcac", by decide⟩, #[some ⟨0, 3⟩]⟩)) ∧
    ∃ begun begun', Begins (g.search ⟨"abcac", by decide⟩ 0 .unlimited) begun ∧
      Begins (g'.search ⟨"abcac", by decide⟩ 0 .unlimited) begun' ∧
        ∀ p, begun = some p → ∃ p' ≤ p, begun' = some p' := by
  let e := concat [group .atomic (alternation [literal "a" false, literal "ab" false]),
    repetition (literal "c" false) 1 none .possessive]
  obtain ⟨g, ok⟩ : ∃ g, e.compile = .ok g := ⟨_, rfl⟩
  obtain ⟨g', ok', pruned⟩ := strip_keeps_matches ok (by decide)
  have valid : Text.isBoundary ⟨"abcac", by decide⟩ 0 = true := by decide
  refine ⟨g, g', ok, ok', ?_, ?_, (pruned valid MatchOptions.unlimited_free).2⟩
  · exact ((compile_compiled ok).search_eq valid MatchOptions.unlimited_free).trans
      (by decide +kernel)
  · exact ((compile_compiled ok').search_eq valid MatchOptions.unlimited_free).trans
      (by decide +kernel)

end Expr

end BacktrackRegex
