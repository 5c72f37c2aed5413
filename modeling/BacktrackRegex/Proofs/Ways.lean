import BacktrackRegex.Expr.Ways
import BacktrackRegex.Proofs.Leaves
import BacktrackRegex.Proofs.Lowered

/-! The ways in which an expression matches. Each goes on from its beginning and holds pieces of the
text. The ways of an expression that is lowered to a group are those of its branches, as its kind
takes them. -/
namespace BacktrackRegex

theorem findSome?_cons_or (f : α → Option β) (x : α) (xs : List α) :
    (x :: xs).findSome? f = (f x).or (xs.findSome? f) := by
  rw [List.findSome?_cons]
  cases f x <;> rfl

theorem findSome?_flatMap (f : β → Option γ) (k : α → List β) (xs : List α) :
    (xs.flatMap k).findSome? f = xs.findSome? fun x => (k x).findSome? f := by
  induction xs with
  | nil => rfl
  | cons x xs ih => rw [List.flatMap_cons, List.findSome?_append, ih, findSome?_cons_or]

theorem findSome?_some (xs : List α) : xs.findSome? some = xs.head? := by
  cases xs <;> rfl

theorem findSome?_take_one (f : α → Option β) (xs : List α) :
    (xs.take 1).findSome? f = xs.head?.bind f := by
  cases xs <;> simp [findSome?_cons_or]

structure Text.Piece (t : Text) (s : Span) : Prop where
  ordered : s.start ≤ s.stop
  start : t.isBoundary s.start = true
  stop : t.isBoundary s.stop = true

def Holdings.Valid (t : Text) (held : Holdings) : Prop := ∀ s, some s ∈ held → t.Piece s

theorem Holdings.Valid.set {t : Text} {held : Holdings} (valid : held.Valid t) {n p q : Nat}
    (begun : t.isBoundary p = true) (reaches : t.Reaches p q) :
    Holdings.Valid t (List.set held n (some ⟨p, q⟩)) := by
  intro s member
  rcases List.mem_or_eq_of_mem_set member with old | new
  · exact valid s old
  · cases new
    exact ⟨reaches.le, begun, reaches.boundary begun⟩

structure Follows (t : Text) (p : Nat) (held : Holdings) (way : Way) : Prop where
  reaches : t.Reaches p way.1
  valid : t.isBoundary p = true → held.Valid t → way.2.Valid t

namespace Follows

variable {t : Text} {p : Nat} {held : Holdings} {way after : Way}

theorem refl (t : Text) (p : Nat) (held : Holdings) : Follows t p held (p, held) := by
  constructor
  case reaches => exact .refl t p
  case valid => exact fun _ valid => valid

theorem trans (first : Follows t p held way) (second : Follows t way.1 way.2 after) :
    Follows t p held after := by
  constructor
  case reaches => exact first.reaches.trans second.reaches
  case valid =>
    intro begun valid
    have between := first.reaches.boundary begun
    exact second.valid between (first.valid begun valid)

end Follows

theorem mem_iterations {body : Nat → Holdings → List Way} {greedy : Bool} {min : Nat}
    {max : Option Nat} {steps n p : Nat} {held : Holdings} {way : Way}
    (member : way ∈ iterations body greedy min max (steps + 1) n p held) :
    way = (p, held) ∨ ∃ first ∈ body p held, way = first ∨
      way ∈ iterations body greedy min max steps (n + 1) first.1 first.2 := by
  have again (more : way ∈ (if max.all (n < ·) then (body p held).flatMap fun w =>
      if w.1 = p then [w] else iterations body greedy min max steps (n + 1) w.1 w.2
      else [])) : ∃ first ∈ body p held, way = first ∨
        way ∈ iterations body greedy min max steps (n + 1) first.1 first.2 := by
    split at more
    · obtain ⟨first, found, rest⟩ := List.mem_flatMap.mp more
      refine ⟨first, found, ?_⟩
      split at rest
      · exact .inl (List.mem_singleton.mp rest)
      · exact .inr rest
    · cases more
  have stop (here : way ∈ (if min ≤ n then [(p, held)] else [])) : way = (p, held) := by
    split at here
    · exact List.mem_singleton.mp here
    · cases here
  unfold iterations at member
  dsimp only at member
  split at member
  · exact (List.mem_append.mp member).symm.imp stop again
  · exact (List.mem_append.mp member).imp stop again

theorem iterations_follow {t : Text} {body : Nat → Holdings → List Way}
    (follow : ∀ {p held way}, way ∈ body p held → Follows t p held way) {greedy : Bool} {min : Nat}
    {max : Option Nat} {steps n p : Nat} {held : Holdings} {way : Way}
    (member : way ∈ iterations body greedy min max steps n p held) : Follows t p held way := by
  induction steps generalizing n p held with
  | zero => simp [iterations] at member
  | succ steps ih =>
    obtain rfl | ⟨first, found, rfl | rest⟩ := mem_iterations member
    · exact .refl t p held
    · exact follow found
    · exact (follow found).trans (ih rest)

/-- The steps of a repetition cut nothing off: any number above that of the bytes left will do. -/
theorem iterations_steps {t : Text} {body : Nat → Holdings → List Way}
    (follow : ∀ {p held way}, way ∈ body p held → Follows t p held way) {greedy : Bool} {min : Nat}
    {max : Option Nat} {steps more n p : Nat} {held : Holdings} (enough : t.size - p < steps)
    (enough' : t.size - p < more) : iterations body greedy min max steps n p held =
      iterations body greedy min max more n p held := by
  induction left : t.size - p using Nat.strongRecOn generalizing steps more n p held with
  | ind left' ih =>
    obtain ⟨steps, rfl⟩ := Nat.exists_eq_succ_of_ne_zero (Nat.ne_of_gt (Nat.zero_lt_of_lt enough))
    obtain ⟨more, rfl⟩ := Nat.exists_eq_succ_of_ne_zero (Nat.ne_of_gt (Nat.zero_lt_of_lt enough'))
    have again {way : Way} (first : way ∈ body p held) (moved : way.1 ≠ p) :
        iterations body greedy min max steps (n + 1) way.1 way.2 =
          iterations body greedy min max more (n + 1) way.1 way.2 := by
      have reaches := (follow first).reaches
      have le := reaches.le
      have inside := reaches.le_size (Ne.symm moved)
      exact ih (t.size - way.1) (by omega) (by omega) (by omega) rfl
    have all : (body p held).flatMap (fun way => if way.1 = p then [way] else
          iterations body greedy min max steps (n + 1) way.1 way.2) =
        (body p held).flatMap fun way => if way.1 = p then [way] else
          iterations body greedy min max more (n + 1) way.1 way.2 := by
      rw [List.flatMap_def, List.flatMap_def]
      apply congrArg List.flatten
      apply List.map_congr_left
      intro way first
      split
      · rfl
      · next moved => exact again first moved
    unfold iterations
    dsimp only
    rw [all]

namespace Expr

theorem leafWays_follow {t : Text} {p : Nat} {held : Holdings} {found : Except Fault (Option Nat)}
    (reaches : ∀ {q}, found = .ok (some q) → t.Reaches p q) {way : Way}
    (member : way ∈ leafWays held found) : Follows t p held way := by
  unfold leafWays at member
  split at member
  · cases List.mem_singleton.mp member
    exact ⟨reaches rfl, fun _ valid => valid⟩
  · simp at member

def inOrder (greedy : Bool) (held : Holdings) (ends : List Nat) : List Way :=
  (if greedy then ends.reverse else ends).map (·, held)

theorem inOrder_cons (greedy : Bool) (held : Holdings) (p : Nat) (later : List Nat) (k : Nat) :
    inOrder greedy held ((p :: later).drop k) =
      let again := inOrder greedy held (later.drop (k - 1))
      let stop := if k = 0 then [(p, held)] else []
      if greedy then again ++ stop else stop ++ again := by
  cases k <;> cases greedy <;> simp [inOrder]

theorem iterations_leaf {t : Text} {leaf : Attempt.LeafEnd}
    (moves : ∀ {p q}, leaf p = .ok (some q) → p < q ∧ q ≤ t.size) {greedy : Bool} {min : Nat}
    {max : Option Nat} {steps m n p : Nat} {held : Holdings} {ends : List Nat}
    (enough : t.size - p < steps)
    (within : m = max.elim steps fun k => Nat.min steps (k - n))
    (reached : Attempt.leafEnds leaf m p = .ok ends) :
    iterations (fun p held => leafWays held (leaf p)) greedy min max steps n p held =
      inOrder greedy held (ends.drop (min - n)) := by
  induction steps generalizing m n p ends with
  | zero => omega
  | succ steps ih =>
    have chain : ∃ later, ends = p :: later ∧
        (if max.all (n < ·) then (leafWays held (leaf p)).flatMap fun w =>
          if w.1 = p then [w] else iterations (fun p held => leafWays held (leaf p)) greedy
            min max steps (n + 1) w.1 w.2 else []) =
          inOrder greedy held (later.drop (min - n - 1)) := by
      have nothing : [] = inOrder greedy held (([] : List Nat).drop (min - n - 1)) := by
        cases greedy <;> simp [inOrder]
      cases m with
      | zero =>
        cases reached
        have full : max.all (n < ·) = false := by
          cases max with
          | none => simp at within
          | some k =>
            have : Min.min (steps + 1) (k - n) = 0 := within.symm
            simp
            omega
        exact ⟨[], rfl, by simpa [full] using nothing⟩
      | succ m =>
        have room : max.all (n < ·) = true := by
          cases max with
          | none => rfl
          | some k =>
            have : Min.min (steps + 1) (k - n) = m + 1 := within.symm
            simp
            omega
        obtain ⟨found, ended, reached⟩ := bind_success reached
        rw [if_pos room, ended]
        cases found with
        | none => cases reached; exact ⟨[], rfl, nothing⟩
        | some q =>
          obtain ⟨forward, inside⟩ := moves ended
          dsimp only at reached
          rw [if_pos forward] at reached
          obtain ⟨later, further, all⟩ := bind_success reached
          cases pure_success all
          refine ⟨later, rfl, ?_⟩
          simp only [leafWays, List.flatMap_singleton, Nat.ne_of_gt forward, if_false]
          rw [show min - n - 1 = min - (n + 1) by omega]
          refine ih (by omega) ?_ further
          cases max with
          | none => simpa using within
          | some k =>
            have : m + 1 = Min.min (steps + 1) (k - n) := within
            change m = Min.min steps (k - (n + 1))
            omega
    obtain ⟨later, rfl, again⟩ := chain
    unfold iterations
    simp only [again, inOrder_cons, Nat.sub_eq_zero_iff_le]

mutual
theorem ways_follow {t : Text} {origin : Nat} : ∀ (e : Expr) {cap p : Nat} {held : Holdings}
    {way : Way}, way ∈ e.ways t origin cap p held → Follows t p held way
  | empty, _, _, _, _, member => by
    cases List.mem_singleton.mp (by simpa only [ways] using member)
    exact .refl _ _ _
  | literal text ignoreCase, _, _, _, _, member => by
    simp only [ways] at member
    exact leafWays_follow literalEnd_reaches member
  | charClass members, _, _, _, _, member => by
    simp only [ways] at member
    exact leafWays_follow CharClass.endAt_reaches member
  | anchor condition, _, p, _, _, member => by
    refine leafWays_follow (fun {q} found => ?_) (by simpa only [ways] using member)
    cases holds : condition.holdsAt t p origin with
    | error e => simp [holds, Except.map] at found
    | ok holds' =>
      cases holds' <;> simp [holds, Except.map] at found
      exact found ▸ .refl t p
  | backReference n ignoreCase, _, _, _, _, member => by
    simp only [ways] at member
    exact leafWays_follow backReferenceEnd_reaches member
  | concat items, _, _, _, _, member => by
    simp only [ways] at member
    exact waysAll_follow items member
  | alternation branches, _, _, _, _, member => by
    simp only [ways] at member
    exact waysAny_follow branches member
  | group .capture body, _, _, _, _, member => by
    simp only [ways, List.mem_map] at member
    obtain ⟨⟨q, inner⟩, found, rfl⟩ := member
    have follows := ways_follow body found
    exact ⟨follows.reaches, fun begun valid =>
      (follows.valid begun valid).set begun follows.reaches⟩
  | group .nonCapture body, _, _, _, _, member => by
    simp only [ways] at member
    exact ways_follow body member
  | group .atomic body, _, _, _, _, member => by
    simp only [ways] at member
    exact ways_follow body (List.mem_of_mem_take member)
  | group .lookAhead body, _, p, _, _, member => by
    simp only [ways, List.mem_map] at member
    obtain ⟨⟨q, inner⟩, found, rfl⟩ := member
    have follows := ways_follow body (List.mem_of_mem_take found)
    exact ⟨.refl t p, follows.valid⟩
  | group .negativeLookAhead body, _, _, _, _, member => by
    simp only [ways] at member
    split at member
    · cases List.mem_singleton.mp member
      exact .refl _ _ _
    · cases member
  | repetition body min max kind, _, _, _, _, member => by
    simp only [ways] at member
    split at member
    · cases List.mem_singleton.mp member
      exact .refl _ _ _
    · split at member
      · exact iterations_follow (ways_follow body) (List.mem_of_mem_take member)
      · exact iterations_follow (ways_follow body) member
theorem waysAll_follow {t : Text} {origin : Nat} : ∀ (items : List Expr) {cap p : Nat}
    {held : Holdings} {way : Way}, way ∈ waysAll t origin items cap p held → Follows t p held way
  | [], _, _, _, _, member => by
    cases List.mem_singleton.mp (by simpa only [waysAll] using member)
    exact .refl _ _ _
  | item :: items, cap, p, held, way, member => by
    simp only [waysAll, List.mem_flatMap] at member
    obtain ⟨⟨q, between⟩, first, rest⟩ := member
    exact (ways_follow item first).trans (waysAll_follow items rest)
theorem waysAny_follow {t : Text} {origin : Nat} : ∀ (branches : List Expr) {cap p : Nat}
    {held : Holdings} {way : Way}, way ∈ waysAny t origin branches cap p held → Follows t p held way
  | [], _, _, _, _, member => by simp [waysAny] at member
  | branch :: branches, cap, p, held, way, member => by
    simp only [waysAny, List.mem_append] at member
    exact member.elim (ways_follow branch) (waysAny_follow branches)
end

end Expr

theorem Expr.ways_repetition {t : Text} {origin : Nat} {body : Expr} {min : Nat}
    {max : Option Nat} {kind : RepeatKind} (bounded : max ≠ some 0) {cap p steps : Nat}
    {held : Holdings} (enough : t.size - p < steps) :
    (repetition body min max kind).ways t origin cap p held =
      let all := iterations (body.ways t origin cap) (kind != .reluctant) min max steps 0 p held
      if kind = .possessive then all.take 1 else all := by
  rw [iterations_steps (ways_follow body) enough (Nat.lt_succ_self _), ways, if_neg bounded]

def GroupKind.ways (kind : GroupKind) (cap p : Nat) (held : Holdings) (inner : List Way) :
    List Way :=
  match kind with
  | .capture => inner.map fun (q, held) => (q, held.set cap (some ⟨p, q⟩))
  | .nonCapture => inner
  | .atomic => inner.take 1
  | .lookAhead => (inner.take 1).map fun (_, held) => (p, held)
  | .negativeLookAhead => if inner.isEmpty then [(p, held)] else []

namespace Expr

theorem waysAny_singleton (t : Text) (origin : Nat) (e : Expr) (cap p : Nat) (held : Holdings) :
    waysAny t origin [e] cap p held = e.ways t origin cap p held := by
  simp [waysAny]

theorem ways_of_asGroup? {e : Expr} {kind : GroupKind} {branches : List Expr}
    (bracket : e.asGroup? = some (kind, branches)) (t : Text) (origin cap p : Nat)
    (held : Holdings) : e.ways t origin cap p held =
      kind.ways cap p held (waysAny t origin branches (kind.firstInner cap) p held) := by
  have single (kind : GroupKind) (body : Expr) : (group kind body).ways t origin cap p held =
      kind.ways cap p held (body.ways t origin (kind.firstInner cap) p held) := by
    cases kind <;> simp [ways, GroupKind.ways, GroupKind.firstInner]
  obtain ⟨rfl, rfl⟩ | rfl | ⟨body, rfl, rfl⟩ | ⟨body, min, max, rfl, bounded, rfl, rfl⟩ :=
    asGroup?_cases bracket
  · simp [ways, GroupKind.ways, GroupKind.firstInner]
  · rw [single, ways]
  · rw [single, waysAny_singleton]
  · rw [waysAny_singleton]
    simp only [ways, GroupKind.ways, GroupKind.firstInner, bounded, if_false, if_true]
    rfl

end Expr

end BacktrackRegex
