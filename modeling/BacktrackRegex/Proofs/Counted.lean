import Mathlib.Data.List.Basic
import BacktrackRegex.Proofs.Contexts

/-! Counted repetitions. A repetition of exactly `n` iterations goes the ways of `n` copies of its
body in a row, but for one thing: an iteration that is empty is the last one, also if it is not the
`n`-th. What the iterations after it could match is lost, unless they could match it before. -/
namespace BacktrackRegex

/-- Where up to `n` copies end, the first tried first, if a copy that ends where it began is the
last one. -/
def copies (ends : Nat → List Nat) : Nat → Nat → List Nat
  | 0, p => [p]
  | n + 1, p => (ends p).flatMap fun q => if q = p then [q] else copies ends n q

def allCopies (ends : Nat → List Nat) : Nat → Nat → List Nat
  | 0, p => [p]
  | n + 1, p => (ends p).flatMap (allCopies ends n)

/-- From `start` on, whatever ends where it began does so as a last resort: it has tried all other
ends before, and from each of them it could do so again. -/
def EmptyLast (t : Text) (start : Nat) (ends : Nat → List Nat) : Prop :=
  ∀ p, start ≤ p → t.isBoundary p = true → p ∈ ends p →
    ∀ q ∈ ends p, q ∈ ends q ∧ (q = p ∨ q ∈ (ends p).takeWhile (· ≠ p))

theorem findSome?_append_of_subset {f : α → Option β} {xs ys : List α} (known : ys ⊆ xs) :
    (xs ++ ys).findSome? f = xs.findSome? f := by
  rw [List.findSome?_append]
  cases found : xs.findSome? f with
  | some b => rfl
  | none =>
    rw [Option.none_or, List.findSome?_eq_none_iff]
    exact fun y member => List.findSome?_eq_none_iff.mp found y (known member)

theorem findSome?_congr {f f' : α → Option β} {xs : List α} (same : ∀ x ∈ xs, f x = f' x) :
    xs.findSome? f = xs.findSome? f' := by
  induction xs with
  | nil => rfl
  | cons x xs ih =>
    rw [findSome?_cons_or, findSome?_cons_or, same x List.mem_cons_self,
      ih fun y member => same y (List.mem_cons_of_mem x member)]

theorem findSome?_append_single {f : α → Option β} {xs ys : List α} {y : α} (member : y ∈ ys)
    (known : ∀ z ∈ ys, z = y ∨ z ∈ xs) :
    (xs ++ ys).findSome? f = (xs ++ [y]).findSome? f := by
  rw [List.findSome?_append, List.findSome?_append]
  cases found : xs.findSome? f with
  | some b => rfl
  | none =>
    have unseen := List.findSome?_eq_none_iff.mp found
    rw [Option.none_or, Option.none_or, findSome?_cons_or, List.findSome?_nil, Option.or_none]
    cases found' : ys.findSome? f with
    | none => exact (List.findSome?_eq_none_iff.mp found' y member).symm
    | some b =>
      obtain ⟨z, last, value⟩ := List.exists_of_findSome?_eq_some found'
      obtain rfl | first := known z last
      · exact value.symm
      · exact absurd value (by simp [unseen z first])

section Copies

variable {t : Text} {start : Nat} {ends : Nat → List Nat} {p q n : Nat}

theorem self_mem_allCopies (still : p ∈ ends p) : p ∈ allCopies ends n p := by
  induction n with
  | zero => exact List.mem_singleton_self p
  | succ n ih => exact List.mem_flatMap.mpr ⟨p, still, ih⟩

theorem mem_allCopies (last : EmptyLast t start ends) (begun : start ≤ p)
    (valid : t.isBoundary p = true) (still : p ∈ ends p) (member : q ∈ allCopies ends n p) :
    q = p ∨ q ∈ ((ends p).takeWhile (· ≠ p)).flatMap (allCopies ends n) := by
  induction n with
  | zero => exact .inl (List.mem_singleton.mp member)
  | succ n ih =>
    have later {r : Nat} (first : r ∈ ends p) (further : q ∈ allCopies ends n r) :
        q ∈ allCopies ends (n + 1) r :=
      List.mem_flatMap.mpr ⟨r, (last p begun valid still r first).1, further⟩
    obtain ⟨r, first, rest⟩ := List.mem_flatMap.mp member
    obtain rfl | before := (last p begun valid still r first).2
    · obtain rfl | known := ih rest
      · exact .inl rfl
      · obtain ⟨r', first', further⟩ := List.mem_flatMap.mp known
        exact .inr (List.mem_flatMap.mpr
          ⟨r', first', later (List.takeWhile_subset _ first') further⟩)
    · exact .inr (List.mem_flatMap.mpr ⟨r, before, later first rest⟩)

/-- Nothing is found among the ends of `n` copies that is not found before the copies after an empty
one come into play. -/
theorem allCopies_findSome? (last : EmptyLast t start ends)
    (onward : ∀ {p q}, q ∈ ends p → t.Reaches p q) (begun : start ≤ p)
    (valid : t.isBoundary p = true) (f : Nat → Option α) :
    (allCopies ends n p).findSome? f = (copies ends n p).findSome? f := by
  induction n generalizing p with
  | zero => rfl
  | succ n ih =>
    let next (q : Nat) : List Nat := if q = p then [q] else copies ends n q
    have same {qs : List Nat} (among : qs ⊆ ends p) (moved : p ∉ qs) :
        (qs.flatMap (allCopies ends n)).findSome? f = (qs.flatMap next).findSome? f := by
      rw [findSome?_flatMap, findSome?_flatMap]
      refine findSome?_congr fun q member => ?_
      have reaches := onward (among member)
      rw [ih (Nat.le_trans begun reaches.le) (reaches.boundary valid)]
      simp only [next, if_neg (ne_of_mem_of_not_mem member moved)]
    by_cases still : p ∈ ends p
    · obtain ⟨before, after, split, new⟩ := List.eq_append_cons_of_mem still
      have first : (ends p).takeWhile (· ≠ p) = before := by
        rw [split, List.takeWhile_append_of_pos fun q member =>
          decide_eq_true (ne_of_mem_of_not_mem member new)]
        simp
      have among : before ⊆ ends p := fun q member => split ▸ List.mem_append_left _ member
      have repeated {q : Nat} (member : q ∈ p :: after) : q = p ∨ q ∈ before :=
        first ▸ (last p begun valid still q (split ▸ List.mem_append_right _ member)).2
      have known : ∀ q ∈ (p :: after).flatMap (allCopies ends n),
          q = p ∨ q ∈ before.flatMap (allCopies ends n) := by
        intro q member
        obtain ⟨r, origin, further⟩ := List.mem_flatMap.mp member
        obtain rfl | earlier := repeated origin
        · exact first ▸ mem_allCopies last begun valid still further
        · exact .inr (List.mem_flatMap.mpr ⟨r, earlier, further⟩)
      have known' : after.flatMap next ⊆ before.flatMap next ++ [p] := by
        intro q member
        obtain ⟨r, origin, further⟩ := List.mem_flatMap.mp member
        obtain rfl | earlier := repeated (List.mem_cons_of_mem p origin)
        · exact List.mem_append_right _ (by simpa [next] using further)
        · exact List.mem_append_left _ (List.mem_flatMap.mpr ⟨r, earlier, further⟩)
      calc (allCopies ends (n + 1) p).findSome? f
        _ = (before.flatMap (allCopies ends n) ++
              (p :: after).flatMap (allCopies ends n)).findSome? f := by
          rw [allCopies, split, List.flatMap_append]
        _ = (before.flatMap (allCopies ends n) ++ [p]).findSome? f :=
          findSome?_append_single (List.mem_append_left _ (self_mem_allCopies still)) known
        _ = (before.flatMap next ++ [p]).findSome? f := by
          rw [List.findSome?_append, same among new, ← List.findSome?_append]
        _ = (before.flatMap next ++ [p] ++ after.flatMap next).findSome? f :=
          (findSome?_append_of_subset known').symm
        _ = (copies ends (n + 1) p).findSome? f := by
          rw [copies, split, List.flatMap_append, List.flatMap_cons]
          simp [next]
    · exact same (List.Subset.refl _) still

end Copies

theorem iterations_counted {t : Text} {body : Nat → Holdings → List Way} {ends : Nat → List Nat}
    {held : Holdings} (alone : ∀ p, body p held = (ends p).map (·, held))
    (onward : ∀ {p q}, q ∈ ends p → t.Reaches p q) {greedy : Bool} {m n steps p : Nat}
    (within : n ≤ m) (enough : t.size - p < steps) :
    iterations body greedy m (some m) steps n p held =
      (copies ends (m - n) p).map (·, held) := by
  induction rest : m - n generalizing n steps p with
  | zero =>
    obtain ⟨steps, rfl⟩ := Nat.exists_eq_succ_of_ne_zero (Nat.ne_of_gt (Nat.zero_lt_of_lt enough))
    have done : m = n := by omega
    cases greedy <;> simp [iterations, copies, done]
  | succ rest' ih =>
    obtain ⟨steps, rfl⟩ := Nat.exists_eq_succ_of_ne_zero (Nat.ne_of_gt (Nat.zero_lt_of_lt enough))
    have again : (body p held).flatMap (fun way => if way.1 = p then [way] else
          iterations body greedy m (some m) steps (n + 1) way.1 way.2) =
        (copies ends (rest' + 1) p).map (·, held) := by
      rw [alone, copies, List.flatMap_map, List.map_flatMap]
      refine List.flatMap_congr fun q member => ?_
      by_cases here : q = p
      · simp [here]
      · have reaches := onward member
        have le := reaches.le
        have inside := reaches.le_size (Ne.symm here)
        simpa only [here, if_false] using ih (by omega) (by omega) (by omega)
    have more : n < m := by omega
    have few : ¬ m ≤ n := by omega
    cases greedy <;> simp [iterations, more, few, again]

namespace Expr

theorem iterations_held {body : Nat → Holdings → List Way} {held : Holdings}
    (keeps : ∀ {p way}, way ∈ body p held → way.2 = held) {greedy : Bool} {min : Nat}
    {max : Option Nat} {steps n p : Nat} {way : Way}
    (member : way ∈ iterations body greedy min max steps n p held) : way.2 = held := by
  induction steps generalizing n p with
  | zero => simp [iterations] at member
  | succ steps ih =>
    obtain rfl | ⟨first, found, rfl | rest⟩ := mem_iterations member
    · rfl
    · exact keeps found
    · exact ih (keeps found ▸ rest)

theorem leafWays_held {held : Holdings} {found : Except Fault (Option Nat)} {way : Way}
    (member : way ∈ leafWays held found) : way.2 = held := by
  unfold leafWays at member
  split at member
  · cases List.mem_singleton.mp member
    rfl
  · cases member

mutual
theorem ways_held {t : Text} {origin : Nat} : ∀ (e : Expr) {cap p : Nat} {held : Holdings}
    {way : Way}, e.captureCount = 0 → way ∈ e.ways t origin cap p held → way.2 = held
  | empty, _, _, _, _, _, member => by
    cases List.mem_singleton.mp (by simpa only [ways] using member)
    rfl
  | literal .., _, _, _, _, _, member | charClass _, _, _, _, _, _, member
  | anchor _, _, _, _, _, _, member | backReference .., _, _, _, _, _, member => by
    simp only [ways] at member
    exact leafWays_held member
  | concat items, _, _, _, _, plain, member => by
    simp only [Expr.captureCount, ways] at plain member
    exact waysAll_held items plain member
  | alternation branches, _, _, _, _, plain, member => by
    simp only [Expr.captureCount, ways] at plain member
    exact waysAny_held branches plain member
  | group .capture body, _, _, _, _, plain, _ => by simp [Expr.captureCount] at plain
  | group .nonCapture body, _, _, _, _, plain, member => by
    have within : body.captureCount = 0 := by simpa [Expr.captureCount] using plain
    simp only [ways] at member
    exact ways_held body within member
  | group .atomic body, _, _, _, _, plain, member => by
    have within : body.captureCount = 0 := by simpa [Expr.captureCount] using plain
    simp only [ways] at member
    exact ways_held body within (List.mem_of_mem_take member)
  | group .lookAhead body, _, p, _, _, plain, member => by
    have within : body.captureCount = 0 := by simpa [Expr.captureCount] using plain
    simp only [ways, List.mem_map] at member
    obtain ⟨first, found, rfl⟩ := member
    change first.2 = _
    exact ways_held body within (List.mem_of_mem_take found)
  | group .negativeLookAhead body, _, _, _, _, _, member => by
    simp only [ways] at member
    split at member
    · cases List.mem_singleton.mp member
      rfl
    · cases member
  | repetition body min max kind, cap, _, _, _, plain, member => by
    have plain : body.captureCount = 0 := by simpa only [Expr.captureCount] using plain
    have keeps {p held way} := @ways_held t origin body cap p held way plain
    simp only [ways] at member
    split at member
    · cases List.mem_singleton.mp member
      rfl
    · split at member
      · exact iterations_held keeps (List.mem_of_mem_take member)
      · exact iterations_held keeps member
theorem waysAll_held {t : Text} {origin : Nat} : ∀ (items : List Expr) {cap p : Nat}
    {held : Holdings} {way : Way}, captureCountAll items = 0 →
    way ∈ waysAll t origin items cap p held → way.2 = held
  | [], _, _, _, _, _, member => by
    cases List.mem_singleton.mp (by simpa only [waysAll] using member)
    rfl
  | item :: items, cap, p, held, way, plain, member => by
    obtain ⟨first, later⟩ := Nat.add_eq_zero_iff.mp plain
    simp only [waysAll, List.mem_flatMap] at member
    obtain ⟨between, found, rest⟩ := member
    rw [waysAll_held items later rest, ways_held item first found]
theorem waysAny_held {t : Text} {origin : Nat} : ∀ (branches : List Expr) {cap p : Nat}
    {held : Holdings} {way : Way}, captureCountAll branches = 0 →
    way ∈ waysAny t origin branches cap p held → way.2 = held
  | [], _, _, _, _, _, member => by simp [waysAny] at member
  | branch :: branches, cap, p, held, way, plain, member => by
    obtain ⟨first, later⟩ := Nat.add_eq_zero_iff.mp plain
    simp only [waysAny, List.mem_append] at member
    exact member.elim (ways_held branch first) (waysAny_held branches later)
end

/-- Where an expression without capture groups ends as part of a match that begins at `start`, the
first end tried first. The capture groups of `r`, which comes after it, are unset. -/
def ends (e r : Expr) (t : Text) (start p : Nat) : List Nat :=
  (e.ways t start 1 p (.replicate (r.captureCount + 1) none)).map (·.1)

/-- What the groups hold after the first way of `r` from one of several offsets on, in their order,
for a match that begins at `start`. -/
def firstHeldAmong? (r : Expr) (t : Text) (start : Nat) (offsets : List Nat) : Option Holdings :=
  (offsets.findSome? fun p =>
    (r.ways t start 1 p (.replicate (r.captureCount + 1) none)).head?).map fun (stop, held) =>
      held.set 0 (some ⟨start, stop⟩)

section Rows

variable {e r : Expr} {t : Text} {start p n : Nat}

theorem mem_ends {q : Nat} (member : q ∈ e.ends r t start p) : t.Reaches p q := by
  obtain ⟨way, found, rfl⟩ := List.mem_map.mp member
  exact (ways_follow e found).reaches

theorem ways_eq_ends (plain : e.captureCount = 0) (r : Expr) (t : Text) (start p : Nat) :
    e.ways t start 1 p (.replicate (r.captureCount + 1) none) =
      (e.ends r t start p).map (·, .replicate (r.captureCount + 1) none) := by
  rw [ends, List.map_map]
  exact (List.map_id _).symm.trans
    (List.map_congr_left fun way found => Prod.ext rfl (ways_held e plain found))

theorem ways_repeated (plain : e.captureCount = 0) (positive : 0 < n) {kind : RepeatKind}
    (givesBack : kind ≠ .possessive) (r : Expr) (t : Text) (start p : Nat) :
    (repetition e n (some n) kind).ways t start 1 p (.replicate (r.captureCount + 1) none) =
      (copies (e.ends r t start) n p).map (·, .replicate (r.captureCount + 1) none) := by
  have bounded : some n ≠ some 0 := by simpa using Nat.ne_of_gt positive
  rw [ways_repetition bounded (Nat.lt_succ_self _)]
  simp only [givesBack, if_false]
  exact iterations_counted (ways_eq_ends plain r t start) mem_ends (Nat.zero_le n)
    (Nat.lt_succ_self _)

theorem waysAll_singleton (t : Text) (origin : Nat) (e : Expr) (cap p : Nat) (held : Holdings) :
    waysAll t origin [e] cap p held = e.ways t origin cap p held := by
  simp [waysAll]

theorem waysAll_copies (plain : e.captureCount = 0) (r : Expr) (t : Text) (start p : Nat) :
    waysAll t start (List.replicate n e ++ [r]) 1 p (.replicate (r.captureCount + 1) none) =
      (allCopies (e.ends r t start) n p).flatMap fun q =>
        r.ways t start 1 q (.replicate (r.captureCount + 1) none) := by
  induction n generalizing p with
  | zero => simp [allCopies, waysAll_singleton]
  | succ n ih =>
    rw [List.replicate_succ, List.cons_append, waysAll, ways_eq_ends plain, allCopies,
      List.flatMap_map, List.flatMap_assoc]
    refine List.flatMap_congr fun q _ => ?_
    rw [plain]
    exact ih q

theorem captureCount_copies (plain : e.captureCount = 0) (n : Nat) :
    (concat (List.replicate n e ++ [r])).captureCount = r.captureCount := by
  rw [Expr.captureCount]
  induction n with
  | zero => simp [captureCountAll]
  | succ n ih =>
    rw [List.replicate_succ, List.cons_append, captureCountAll, plain, ih, Nat.zero_add]

theorem checkAll_copies {captures : Nat} (first : e.check captures = .ok ())
    (last : r.check captures = .ok ()) (n : Nat) :
    checkAll captures (List.replicate n e ++ [r]) = .ok () := by
  induction n with
  | zero => simp [checkAll, last]
  | succ n ih =>
    rw [List.replicate_succ, List.cons_append, checkAll, first]
    exact ih

theorem firstHeld?_repeated (plain : e.captureCount = 0) (positive : 0 < n) {kind : RepeatKind}
    (givesBack : kind ≠ .possessive) :
    (concat [repetition e n (some n) kind, r]).firstHeld? t start start =
      r.firstHeldAmong? t start (copies (e.ends r t start) n start) := by
  have captures : (concat [repetition e n (some n) kind, r]).captureCount = r.captureCount := by
    simp [Expr.captureCount, captureCountAll, plain]
  rw [firstHeld?, captures, firstHeldAmong?, ways, waysAll, ways_repeated plain positive givesBack,
    List.flatMap_map, List.head?_flatMap]
  simp only [Expr.captureCount, plain, waysAll_singleton]

theorem firstHeld?_copies (plain : e.captureCount = 0) :
    (concat (List.replicate n e ++ [r])).firstHeld? t start start =
      r.firstHeldAmong? t start (allCopies (e.ends r t start) n start) := by
  rw [firstHeld?, captureCount_copies plain, firstHeldAmong?, ways, waysAll_copies plain,
    List.head?_flatMap]

end Rows

/-- A repetition of exactly `n` iterations, in front of another expression, matches as `n` copies in
a row do if a copy that ends where it began is followed by what comes after the last one. The order
of the ways in which `n` copies match is kept too if a copy matches the empty text only as a last
resort. -/
theorem counted_repetition {e r : Expr} (plain : e.captureCount = 0) {n : Nat} (positive : 0 < n)
    {kind : RepeatKind} (givesBack : kind ≠ .possessive) {g : Graph}
    (ok : (concat [repetition e n (some n) kind, r]).compile = .ok g) :
    ∃ g', (concat (List.replicate n e ++ [r])).compile = .ok g' ∧
      ∀ {t : Text} {start : Nat} {options : MatchOptions}, t.isBoundary start = true →
        options.Unlimited →
        g.run t start options = .ok (.ok (.ofHeld? t
          (r.firstHeldAmong? t start (copies (e.ends r t start) n start)))) ∧
        g'.run t start options = .ok (.ok (.ofHeld? t
          (r.firstHeldAmong? t start (allCopies (e.ends r t start) n start)))) ∧
        (EmptyLast t start (e.ends r t start) →
          g'.run t start options = g.run t start options) := by
  have compiled := compile_compiled ok
  have captures : (concat [repetition e n (some n) kind, r]).captureCount = r.captureCount := by
    simp [Expr.captureCount, captureCountAll, plain]
  have checked := captures ▸ compiled.checked
  rw [Expr.check] at checked
  obtain ⟨repeated, last⟩ := check_cons checked
  obtain ⟨g', ok'⟩ := compile_of_check (e := concat (List.replicate n e ++ [r])) (by
    rw [captureCount_copies plain, Expr.check]
    exact checkAll_copies (check_body repeated) (check_cons last).1 n)
  refine ⟨g', ok', fun {t start options} valid unlimited => ?_⟩
  rw [compiled.run_eq valid unlimited, (compile_compiled ok').run_eq valid unlimited,
    firstHeld?_repeated plain positive givesBack, firstHeld?_copies plain]
  refine ⟨rfl, rfl, fun emptyLast => ?_⟩
  rw [firstHeldAmong?, allCopies_findSome? emptyLast mem_ends (Nat.le_refl start) valid]
  rfl

theorem counted_repetition_gives_back : ∃ g g',
    (concat [repetition (alternation [literal "a" false, empty]) 2 (some 2) .greedy,
      literal "ab" false]).compile = .ok g ∧
    (concat [alternation [literal "a" false, empty], alternation [literal "a" false, empty],
      literal "ab" false]).compile = .ok g' ∧
    g'.run ⟨"aab", by decide⟩ 0 .unlimited = g.run ⟨"aab", by decide⟩ 0 .unlimited ∧
    g.run ⟨"aab", by decide⟩ 0 .unlimited =
      .ok (.ok (.matched ⟨⟨"aab", by decide⟩, #[some ⟨0, 3⟩]⟩)) := by
  obtain ⟨g, ok⟩ : ∃ g, (concat [repetition (alternation [literal "a" false, empty]) 2 (some 2)
      .greedy, literal "ab" false]).compile = .ok g := ⟨_, rfl⟩
  obtain ⟨g', ok', same⟩ := counted_repetition rfl (by decide) (by decide) ok
  have valid : Text.isBoundary ⟨"aab", by decide⟩ 0 = true := by decide
  obtain ⟨matched, -, agree⟩ := same valid MatchOptions.unlimited_free
  refine ⟨g, g', ok, ok', agree fun p _ valid => ?_, matched⟩
  let ends := (alternation [literal "a" false, empty]).ends (literal "ab" false)
    ⟨"aab", by decide⟩ 0
  have last : ∀ p < 4, p ∈ ends p → ∀ q ∈ ends p,
      q ∈ ends q ∧ (q = p ∨ q ∈ (ends p).takeWhile (· ≠ p)) := by decide
  exact last p (Nat.lt_succ_of_le (Text.le_size_of_isBoundary valid))

/-- An empty iteration hides a later one that would consume: at the start of the text the body may
be empty, and it is matched no second time then. -/
theorem empty_iteration_hides : ¬ ∀ (e r : Expr) (n : Nat) (kind : RepeatKind) (g g' : Graph)
    (t : Text) (start : Nat), e.captureCount = 0 → 1 ≤ n → kind ≠ .possessive →
    (concat [repetition e n (some n) kind, r]).compile = .ok g →
    (concat (List.replicate n e ++ [r])).compile = .ok g' → t.isBoundary start = true →
    g.run t start .unlimited = g'.run t start .unlimited := by
  intro same
  let e := alternation [literal "a" false, anchor .startText]
  obtain ⟨g, ok⟩ : ∃ g, (concat [repetition e 2 (some 2) .greedy, literal "b" false]).compile =
    .ok g := ⟨_, rfl⟩
  obtain ⟨g', ok'⟩ : ∃ g', (concat (List.replicate 2 e ++ [literal "b" false])).compile =
    .ok g' := ⟨_, rfl⟩
  have lost : g.run ⟨"ab", by decide⟩ 0 .unlimited = .ok (.ok .noMatch) :=
    (compile_compiled ok).run_eq (by decide) MatchOptions.unlimited_free
  have found : g'.run ⟨"ab", by decide⟩ 0 .unlimited =
      .ok (.ok (.matched ⟨⟨"ab", by decide⟩, #[some ⟨0, 2⟩]⟩)) :=
    (compile_compiled ok').run_eq (by decide) MatchOptions.unlimited_free
  have agree := same e (literal "b" false) 2 .greedy g g' ⟨"ab", by decide⟩ 0 rfl (by decide)
    (by decide) ok ok' (by decide)
  rw [lost, found] at agree
  cases agree

end Expr

end BacktrackRegex
