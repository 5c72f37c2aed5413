import BacktrackRegex.Expr.Layout

/-! Expressions that differ in the kinds of their groups and repetitions only: in the order in which
the ways to match are tried and in which of them are given up. -/
namespace BacktrackRegex

def RepeatKind.switched : RepeatKind → RepeatKind
  | greedy => reluctant
  | reluctant => greedy
  | possessive => possessive

namespace Expr

mutual
def every (holds : Expr → Bool) : Expr → Bool
  | concat items => holds (concat items) && everyAll holds items
  | alternation branches => holds (alternation branches) && everyAll holds branches
  | group kind body => holds (group kind body) && body.every holds
  | repetition body min max kind => holds (repetition body min max kind) && body.every holds
  | e => holds e
def everyAll (holds : Expr → Bool) : List Expr → Bool
  | [] => true
  | e :: es => e.every holds && everyAll holds es
end

section Every

variable {holds : Expr → Bool} {e : Expr} {items es : List Expr} {kind : GroupKind} {min : Nat}
variable {max : Option Nat} {loops : RepeatKind}

theorem every_concat : (concat items).every holds = true ↔
    holds (concat items) = true ∧ everyAll holds items = true := by
  simp only [every, Bool.and_eq_true]

theorem every_alternation : (alternation items).every holds = true ↔
    holds (alternation items) = true ∧ everyAll holds items = true := by
  simp only [every, Bool.and_eq_true]

theorem every_group : (group kind e).every holds = true ↔
    holds (group kind e) = true ∧ e.every holds = true := by
  simp only [every, Bool.and_eq_true]

theorem every_repetition : (repetition e min max loops).every holds = true ↔
    holds (repetition e min max loops) = true ∧ e.every holds = true := by
  simp only [every, Bool.and_eq_true]

theorem every_cons : everyAll holds (e :: es) = true ↔
    e.every holds = true ∧ everyAll holds es = true := by
  simp only [everyAll, Bool.and_eq_true]

theorem every_self (all : e.every holds = true) : holds e = true := by
  cases e with
  | concat items => exact (every_concat.mp all).1
  | alternation branches => exact (every_alternation.mp all).1
  | group kind body => exact (every_group.mp all).1
  | repetition body min max kind => exact (every_repetition.mp all).1
  | _ => exact all

end Every

mutual
/-- The expression with other kinds of groups and repetitions. Those of repetitions may depend on
their places; the body of a group or repetition has number 0 in it. -/
def rekind (groups : GroupKind → GroupKind) (repeats : Path → RepeatKind → RepeatKind) : Expr → Expr
  | concat items => concat (rekindAll groups repeats 0 items)
  | alternation branches => alternation (rekindAll groups repeats 0 branches)
  | group kind body => group (groups kind) (body.rekind groups fun path => repeats (0 :: path))
  | repetition body min max kind =>
    repetition (body.rekind groups fun path => repeats (0 :: path)) min max (repeats [] kind)
  | e => e
def rekindAll (groups : GroupKind → GroupKind) (repeats : Path → RepeatKind → RepeatKind)
    (i : Nat) : List Expr → List Expr
  | [] => []
  | e :: es =>
    e.rekind groups (fun path => repeats (i :: path)) :: rekindAll groups repeats (i + 1) es
end

def switch (chosen : Path → Bool) : Expr → Expr :=
  rekind id fun path kind => if chosen path then kind.switched else kind

/-- The expression without commitments: atomic groups become non-capturing ones and possessive
repetitions greedy ones. -/
def strip : Expr → Expr :=
  rekind (fun kind => if kind = .atomic then .nonCapture else kind)
    fun _ kind => if kind = .possessive then .greedy else kind

/-- Whether a part settles on one of several ways that may differ in what comes of them. -/
def commits : Expr → Bool
  | group .atomic _ | repetition _ _ _ .possessive => true
  | group .lookAhead body => body.captureCount != 0
  | _ => false

/-- Whether a part asks of its body that it does not match, or what its first way captures. -/
def discriminates : Expr → Bool
  | group .negativeLookAhead _ => true
  | group .lookAhead body => body.captureCount != 0
  | _ => false

end Expr

end BacktrackRegex
