import BacktrackRegex.Proofs.Lowered

/-! Defects of an expression, listed in pre-order of the tree. An expression is compiled exactly if
it has none, and is otherwise refused for the first one. -/
namespace BacktrackRegex.Expr

mutual
/-- The parts of an expression in pre-order, beginning with itself. Bodies of repetitions that are
left out are parts too. -/
def preorder : Expr → List Expr
  | concat items => concat items :: preorderAll items
  | alternation branches => alternation branches :: preorderAll branches
  | group kind body => group kind body :: body.preorder
  | repetition body min max kind => repetition body min max kind :: body.preorder
  | leaf => [leaf]
def preorderAll : List Expr → List Expr
  | [] => []
  | e :: es => e.preorder ++ preorderAll es
end

def isCapture : Expr → Bool
  | group .capture _ => true
  | _ => false

/-- What is wrong with a part itself, whatever is wrong inside, if the whole has `captures` capture
groups. -/
def defect? (captures : Nat) : Expr → Option CompileError
  | backReference n _ => if n = 0 ∨ captures < n then some (.invalidBackReference n) else none
  | alternation [] => some .emptyAlternation
  | repetition _ min (some max) _ => if max < min then some (.invalidRepeatRange min max) else none
  | _ => none

def defects (e : Expr) : List CompileError :=
  e.preorder.filterMap (defect? (e.preorder.countP isCapture))

mutual
theorem countP_preorder : ∀ e : Expr, e.preorder.countP isCapture = e.captureCount
  | empty | literal .. | charClass _ | anchor _ | backReference .. => rfl
  | concat items => by
    rw [preorder, List.countP_cons_of_neg (by simp [isCapture]), countP_preorderAll, captureCount]
  | alternation branches => by
    rw [preorder, List.countP_cons_of_neg (by simp [isCapture]), countP_preorderAll, captureCount]
  | group kind body => by
    rw [preorder, List.countP_cons, countP_preorder, captureCount]
    cases kind <;> rfl
  | repetition body min max kind => by
    rw [preorder, List.countP_cons_of_neg (by simp [isCapture]), countP_preorder, captureCount]
theorem countP_preorderAll : ∀ es : List Expr,
    (preorderAll es).countP isCapture = captureCountAll es
  | [] => rfl
  | e :: es => by
    rw [preorderAll, List.countP_append, countP_preorder, countP_preorderAll, captureCountAll]
end

def refuse : List CompileError → Except CompileError Unit
  | [] => .ok ()
  | d :: _ => .error d

theorem refuse_append (ds ds' : List CompileError) :
    refuse (ds ++ ds') = refuse ds >>= fun _ => refuse ds' := by
  cases ds <;> rfl

theorem refuse_eq_ok {ds : List CompileError} : refuse ds = .ok () ↔ ds = [] := by
  cases ds <;> simp [refuse]

theorem refuse_eq_error {ds : List CompileError} {d : CompileError} :
    refuse ds = .error d ↔ ds.head? = some d := by
  cases ds <;> simp [refuse]

mutual
theorem check_eq_refuse (captures : Nat) :
    ∀ e : Expr, e.check captures = refuse (e.preorder.filterMap (defect? captures))
  | empty | literal .. | charClass _ | anchor _ => rfl
  | backReference n _ => by
    simp only [check, preorder, List.filterMap_cons, defect?]
    by_cases wrong : n = 0 ∨ captures < n
    · simp only [if_pos wrong]; rfl
    · simp only [if_neg wrong]; rfl
  | concat items => by
    rw [check, preorder, List.filterMap_cons_none rfl, checkAll_eq_refuse captures items]
  | alternation [] => rfl
  | alternation (branch :: branches) => by
    rw [check, preorder, List.filterMap_cons_none rfl,
      checkAll_eq_refuse captures (branch :: branches)]
    rfl
  | group _ body => by
    rw [check, preorder, List.filterMap_cons_none rfl, check_eq_refuse captures body]
  | repetition body min none _ => by
    rw [check, preorder, List.filterMap_cons_none rfl, check_eq_refuse captures body]
  | repetition body min (some max) _ => by
    rw [check, preorder, List.filterMap_cons, defect?, check_eq_refuse captures body]
    by_cases wrong : max < min
    · simp only [if_pos wrong]; rfl
    · simp only [if_neg wrong]
theorem checkAll_eq_refuse (captures : Nat) : ∀ es : List Expr,
    checkAll captures es = refuse ((preorderAll es).filterMap (defect? captures))
  | [] => rfl
  | e :: es => by
    rw [checkAll, preorderAll, List.filterMap_append, refuse_append, check_eq_refuse captures e,
      checkAll_eq_refuse captures es]
end

theorem check_eq_defects (e : Expr) : e.check e.captureCount = refuse e.defects := by
  rw [check_eq_refuse, defects, countP_preorder]

theorem compile_eq_error_iff {e : Expr} {d : CompileError} :
    e.compile = .error d ↔ e.check e.captureCount = .error d := by
  cases found : e.check e.captureCount with
  | ok _ =>
    obtain ⟨g, ok⟩ := compile_of_check found
    simp [ok]
  | error d' => simp [compile, found, bind, Except.bind]

/-- An expression without defects has a graph, one with defects is refused for the first. -/
theorem compile_refuses_first (e : Expr) :
    ((∃ g, e.compile = .ok g) ↔ e.defects = []) ∧
    ∀ d, e.compile = .error d ↔ e.defects.head? = some d := by
  refine ⟨⟨?_, fun sound => ?_⟩, fun d => ?_⟩
  · rintro ⟨g, ok⟩
    exact refuse_eq_ok.mp (e.check_eq_defects.symm.trans (compile_compiled ok).checked)
  · exact compile_of_check (e.check_eq_defects.trans (refuse_eq_ok.mpr sound))
  · rw [compile_eq_error_iff, check_eq_defects, refuse_eq_error]

/-- A repetition is refused before its body, and a body that is left out is looked at, too. -/
example : (concat [backReference 1 false, repetition (group .capture (alternation [])) 0 (some 0)
    .greedy, repetition (backReference 2 true) 3 (some 1) .reluctant]).defects =
    [.emptyAlternation, .invalidRepeatRange 3 1, .invalidBackReference 2] := rfl

end BacktrackRegex.Expr
