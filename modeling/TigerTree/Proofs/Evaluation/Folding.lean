import TigerTree.Proofs.Building.Soundness
import TigerTree.Proofs.Evaluation.Meaning

/-! Folding constants. An expression that has a value may be overwritten by that value as a
literal: every other node evaluates as before, to the same value, objection or fault, since an
evaluation asks nothing of a child but what it evaluates to. -/

set_option autoImplicit false

namespace TigerTree

private theorem evaluateElements_congr {first second : ExprId → EvalM Int32} (element : ExprId)
    (rest : List ExprId) (agree : ∀ id ∈ element :: rest, first id = second id) :
    evaluateElements first element rest = evaluateElements second element rest := by
  induction rest generalizing element with
  | nil => exact agree element List.mem_cons_self
  | cons next rest ih =>
      have here := agree element List.mem_cons_self
      have later := ih next (fun id member => agree id (List.mem_cons_of_mem _ member))
      rw [evaluateElements, evaluateElements, here, later]

theorem evaluateShape_congr (arena : Arena) {first second : ExprId → EvalM Int32}
    (location : Location) (shape : Shape)
    (agree : ∀ id, .expr id ∈ (arena.shapeLayer location shape).children →
      first id = second id) :
    evaluateShape first location shape = evaluateShape second location shape := by
  cases shape with
  | binary operator left right =>
      have onLeft := agree left List.mem_cons_self
      have onRight := agree right (.tail _ List.mem_cons_self)
      change (first left >>= fun _ => first right >>= _) =
        second left >>= fun _ => second right >>= _
      rw [onLeft, onRight]
  | sequence elements =>
      cases elements with
      | nil => rfl
      | cons element rest =>
          apply evaluateElements_congr
          intro id member
          exact agree id (List.mem_map_of_mem member)
  | ifThenElse condition thenBranch elseBranch =>
      have onCondition := agree condition List.mem_cons_self
      have onThen := agree thenBranch (.tail _ List.mem_cons_self)
      have onElse := agree elseBranch (.tail _ (.tail _ List.mem_cons_self))
      change (first condition >>= fun value =>
        if value ≠ 0 then first thenBranch else first elseBranch) = _
      rw [onCondition, onThen, onElse]
      rfl
  | _ => rfl

namespace Arena

variable {arena old new : Arena}

private theorem evaluateWithin_succ_congr {length longer : Nat} {id : ExprId}
    (sameExpr : new.expr id = old.expr id) (sameShape : new.shape = old.shape)
    (agree : ∀ child, .expr child ∈ (old.layer (.expr id)).children →
      new.evaluateWithin longer child = old.evaluateWithin length child) :
    new.evaluateWithin (longer + 1) id = old.evaluateWithin (length + 1) id := by
  rw [evaluateWithin, evaluateWithin, sameExpr, sameShape]
  cases found : old.expr id with
  | error fault => rfl
  | ok expr =>
      cases resolved : old.shape expr.form with
      | error fault =>
          change (Stop.ofLookup (old.shape expr.form) >>= _) =
            Stop.ofLookup (old.shape expr.form) >>= _
          rw [resolved]
          rfl
      | ok shape =>
          rw [layer_expr found resolved] at agree
          change (Stop.ofLookup (old.shape expr.form) >>= _) =
            Stop.ofLookup (old.shape expr.form) >>= _
          rw [resolved]
          exact evaluateShape_congr old expr.location shape agree

/-- A bound on the paths that suffices gives the value that every larger one gives. -/
theorem evaluateWithin_of_within {length longer : Nat} {id : ExprId}
    (within : arena.Within length (.expr id)) (bound : length ≤ longer) :
    arena.evaluateWithin longer id = arena.evaluateWithin length id := by
  induction length generalizing longer id with
  | zero => exact within.elim
  | succ length ih =>
      obtain ⟨longer, rfl⟩ : ∃ shorter, longer = shorter + 1 := ⟨longer - 1, by omega⟩
      apply evaluateWithin_succ_congr rfl rfl
      intro child member
      exact ih (within _ member) (by omega)

theorem evaluateWithin_eq_evaluate {length : Nat} {id : ExprId}
    (within : arena.Within length (.expr id)) :
    arena.evaluateWithin length id = arena.evaluate (.expr id) := by
  have enough : arena.Within arena.pathBound (.expr id) := within.acyclic.within
  rcases Nat.le_total length arena.pathBound with shorter | longer
  · exact (evaluateWithin_of_within within shorter).symm
  · exact evaluateWithin_of_within enough longer

theorem exists_expr_of_evaluate {id : ExprId} {value : Int32}
    (evaluates : arena.evaluate (.expr id) = .ok value) : ∃ expr, arena.expr id = .ok expr := by
  cases found : arena.expr id with
  | ok expr => exact ⟨expr, rfl⟩
  | error fault =>
      rw [evaluate, pathBound, evaluateWithin, found] at evaluates
      cases evaluates

theorem setExpr_eq {id : ExprId} {expr : Expr} (found : arena.expr id = .ok expr)
    (replacement : Expr) :
    setExpr id replacement arena = .ok true (arena.withExpr id replacement) := by
  simp only [setExpr, amendExpr, found]
  rfl

theorem pathBound_withExpr (id : ExprId) (expr : Expr) :
    (arena.withExpr id expr).pathBound = arena.pathBound := by
  simp only [pathBound, withExpr, Array.size_setIfInBounds]

theorem shape_withExpr (id : ExprId) (expr : Expr) :
    (arena.withExpr id expr).shape = arena.shape := by
  funext form
  cases form <;> rfl

theorem children_shapeLayer_withExpr (id : ExprId) (expr : Expr) (location : Location)
    (shape : Shape) :
    ((arena.withExpr id expr).shapeLayer location shape).children =
      (arena.shapeLayer location shape).children := by
  cases shape <;> rfl

section

variable {id : ExprId} {value : Int32} {location : Location}

private theorem owns_of_withExpr {expr : Expr} (found : arena.expr id = .ok expr)
    {parent child : NodeId}
    (owned : (arena.withExpr id ⟨.int value, location⟩).Owns parent child) :
    arena.Owns parent child := by
  unfold Owns at owned ⊢
  cases parent with
  | decl parent => exact owned
  | expr parent =>
      have lookup := expr_withExpr found ⟨.int value, location⟩ parent
      by_cases same : parent = id
      · rw [if_pos same] at lookup
        have resolved : (arena.withExpr id ⟨.int value, location⟩).shape (.int value) =
            .ok (.int value) := rfl
        rw [layer_expr lookup resolved] at owned
        cases owned
      · rw [if_neg same] at lookup
        simp only [layer, lookup, shape_withExpr] at owned ⊢
        cases isExpr : arena.expr parent with
        | error fault =>
            rw [isExpr] at owned
            cases owned
        | ok parentExpr =>
            rw [isExpr] at owned
            simp only at owned ⊢
            cases resolved : arena.shape parentExpr.form with
            | error fault =>
                rw [resolved] at owned
                cases owned
            | ok shape =>
                rw [resolved] at owned
                simp only [children_shapeLayer_withExpr] at owned
                exact owned

theorem Acyclic.withExpr {expr : Expr} (found : arena.expr id = .ok expr) {root : NodeId}
    (acyclic : arena.Acyclic root) :
    (arena.withExpr id ⟨.int value, location⟩).Acyclic root := by
  have fewer : ∀ parent child, (arena.withExpr id ⟨.int value, location⟩).Owns parent child →
      arena.Owns parent child := fun _ _ owned => owns_of_withExpr found owned
  intro node reached cycle
  exact acyclic node (Relation.ReflTransGen.mono fewer _ _ reached)
    (Relation.TransGen.mono fewer _ _ cycle)

private theorem evaluateWithin_withExpr (evaluates : arena.evaluate (.expr id) = .ok value)
    {length : Nat} {root : ExprId} (within : arena.Within length (.expr root)) :
    (arena.withExpr id ⟨.int value, location⟩).evaluateWithin length root =
      arena.evaluateWithin length root := by
  obtain ⟨expr, found⟩ := exists_expr_of_evaluate evaluates
  induction length generalizing root with
  | zero => exact within.elim
  | succ length ih =>
      have lookup := expr_withExpr found ⟨.int value, location⟩ root
      by_cases same : root = id
      · subst same
        rw [if_pos rfl] at lookup
        rw [evaluateWithin_eq_evaluate within, evaluates, evaluateWithin, lookup]
        rfl
      · rw [if_neg same] at lookup
        apply evaluateWithin_succ_congr lookup (shape_withExpr id _)
        intro child member
        exact ih (within _ member)

theorem evaluate_withExpr (evaluates : arena.evaluate (.expr id) = .ok value) {root : NodeId}
    (acyclic : arena.Acyclic root) :
    (arena.withExpr id ⟨.int value, location⟩).evaluate root = arena.evaluate root := by
  cases root with
  | decl root => rfl
  | expr root =>
      rw [evaluate, pathBound_withExpr]
      exact evaluateWithin_withExpr evaluates acyclic.within

end

/-- The second arena comes from the first by replacements one after another, each of an expression
that has a value by that value, at whatever location. -/
inductive Folds (arena : Arena) : Arena → Prop
  | none : arena.Folds arena
  | next {folded next : Arena} (id : ExprId) (value : Int32) (location : Location)
      (earlier : arena.Folds folded) (evaluates : folded.evaluate (.expr id) = .ok value)
      (replaced : setExpr id ⟨.int value, location⟩ folded = .ok true next) : arena.Folds next

private theorem Folds.keeps {folded : Arena} (folds : arena.Folds folded) {root : NodeId}
    (acyclic : arena.Acyclic root) :
    folded.Acyclic root ∧ folded.evaluate root = arena.evaluate root := by
  induction folds with
  | none => exact ⟨acyclic, rfl⟩
  | next id value location _ evaluates replaced ih =>
      obtain ⟨acyclicHere, sameHere⟩ := ih
      obtain ⟨expr, found⟩ := exists_expr_of_evaluate evaluates
      rw [setExpr_eq found] at replaced
      cases replaced
      exact ⟨acyclicHere.withExpr found, (evaluate_withExpr evaluates acyclicHere).trans sameHere⟩

/-- Folding constants changes the outcome of no evaluation below which there is no cycle, and
whatever has a value can be folded next. -/
theorem evaluate_eq_of_folds {folded : Arena} {root : NodeId} (acyclic : arena.Acyclic root)
    (folds : arena.Folds folded) :
    folded.evaluate root = arena.evaluate root ∧
      ∀ id value location, folded.evaluate (.expr id) = .ok value →
        ∃ next, setExpr id ⟨.int value, location⟩ folded = .ok true next ∧
          next.expr id = .ok ⟨.int value, location⟩ ∧
          next.evaluate root = arena.evaluate root := by
  constructor
  · exact (folds.keeps acyclic).2
  · intro id value location evaluates
    obtain ⟨expr, found⟩ := exists_expr_of_evaluate evaluates
    have replaced := setExpr_eq found ⟨.int value, location⟩
    refine ⟨_, replaced, ?_, ?_⟩
    · rw [expr_withExpr found, if_pos rfl]
    · exact ((Folds.next id value location folds evaluates replaced).keeps acyclic).2

end Arena

/-- A product that stands in four places, once in front of a dangling branch, and a division by
the difference of two equal values. -/
def unfoldedDivision : Arena :=
  { Arena.initial with
    exprs := #[
      ⟨.int 6, ⟨1, 1⟩⟩,
      ⟨.binary .mul ⟨0⟩ ⟨0⟩, ⟨1, 2⟩⟩,
      ⟨.ifThenElse ⟨1⟩ ⟨1⟩ ⟨9⟩, ⟨1, 3⟩⟩,
      ⟨.binary .sub ⟨1⟩ ⟨2⟩, ⟨1, 4⟩⟩,
      ⟨.binary .div ⟨2⟩ ⟨3⟩, ⟨1, 5⟩⟩] }

def foldedDivision : Arena :=
  { Arena.initial with
    exprs := #[
      ⟨.int 6, ⟨1, 1⟩⟩,
      ⟨.int 36, ⟨2, 1⟩⟩,
      ⟨.int 36, ⟨2, 2⟩⟩,
      ⟨.binary .sub ⟨1⟩ ⟨2⟩, ⟨1, 4⟩⟩,
      ⟨.binary .div ⟨2⟩ ⟨3⟩, ⟨1, 5⟩⟩] }

theorem evaluate_foldedDivision :
    unfoldedDivision.Acyclic (.expr ⟨4⟩) ∧ unfoldedDivision.Folds foldedDivision ∧
      foldedDivision.evaluate (.expr ⟨4⟩) = unfoldedDivision.evaluate (.expr ⟨4⟩) ∧
      foldedDivision.evaluate (.expr ⟨4⟩) =
        EvalM.diagnose (EvalError.divisionByZero.locatedAt ⟨1, 5⟩) := by
  have within : unfoldedDivision.Within 6 (.expr ⟨4⟩) := by decide
  have folds : unfoldedDivision.Folds foldedDivision :=
    .next ⟨2⟩ 36 ⟨2, 2⟩ (.next ⟨1⟩ 36 ⟨2, 1⟩ .none rfl rfl) rfl rfl
  exact ⟨within.acyclic, folds, (Arena.evaluate_eq_of_folds within.acyclic folds).1, rfl⟩

end TigerTree
