import Mathlib.Logic.Relation
import TigerTree.Proofs.Evaluation.Asking

/-! What an evaluation reads. It reads the nodes it executes and nothing else: of a node of a kind
without a value only the kind, the location and that its lists are there, of every other executed
node its location and its shape. The rest of the tables may hold anything. -/

set_option autoImplicit false

namespace TigerTree

/-- The kinds that evaluation has a rule for; a node of another kind is rejected where it is met. -/
def NodeKind.hasValue : NodeKind → Bool
  | .integerLiteral | .binaryOperator | .sequence | .ifThenElse => true
  | _ => false

/-- The evaluation comes to a value or to an objection. -/
def EvalM.Returns (outcome : EvalM Int32) : Prop :=
  ∀ fault, outcome ≠ .error (.faulted fault)

/-- To an evaluation the shapes are the same: they are equal, or of one kind without a value. -/
def Shape.Resembles (shape other : Shape) : Prop :=
  other = shape ∨ shape.nodeKind.hasValue = false ∧ other.nodeKind = shape.nodeKind

private theorem evaluateShape_of_rejected (evaluate : ExprId → EvalM Int32) (location : Location)
    {shape : Shape} (rejected : shape.nodeKind.hasValue = false) :
    evaluateShape evaluate location shape =
      EvalM.diagnose ((EvalError.unsupported shape.nodeKind).locatedAt location) := by
  cases shape with
  | int value => cases rejected
  | binary operator left right => cases rejected
  | sequence elements => cases rejected
  | ifThenElse condition thenBranch elseBranch => cases rejected
  | _ => rfl

theorem Shape.Resembles.evaluateShape_eq {shape other : Shape}
    (resembles : shape.Resembles other) {first second : ExprId → EvalM Int32}
    (location : Location) (agree : ∀ id ∈ shape.asked first, second id = first id) :
    evaluateShape second location other = evaluateShape first location shape := by
  rcases resembles with rfl | ⟨rejected, sameKind⟩
  · exact evaluateShape_of_asked location agree
  · have rejectedToo : other.nodeKind.hasValue = false := by
      rw [sameKind]
      exact rejected
    rw [evaluateShape_of_rejected second location rejectedToo,
      evaluateShape_of_rejected first location rejected, sameKind]

namespace Arena

variable {arena other : Arena} {length : Nat} {root : NodeId} {id : ExprId}

def asked (arena : Arena) : NodeId → List NodeId
  | .decl _ => []
  | .expr id =>
      match arena.expr id with
      | .error _ => []
      | .ok expr =>
          match arena.shape expr.form with
          | .error _ => []
          | .ok shape => (shape.asked (fun child => arena.evaluate (.expr child))).map .expr

/-- The node is evaluated in the course of evaluating the root. -/
def Executes (arena : Arena) (root node : NodeId) : Prop :=
  Relation.ReflTransGen (fun parent child => child ∈ arena.asked parent) root node

theorem Executes.mem {nodes : List NodeId} {node : NodeId} (executes : arena.Executes root node)
    (start : root ∈ nodes) (closed : ∀ parent ∈ nodes, ∀ child ∈ arena.asked parent, child ∈ nodes) :
    node ∈ nodes := by
  induction executes with
  | refl => exact start
  | tail _ isAsked ih => exact closed _ ih _ isAsked

/-- An evaluation goes on to no declaration. -/
theorem decl_not_asked (parent : NodeId) (id : DeclId) : .decl id ∉ arena.asked parent := by
  intro isAsked
  unfold asked at isAsked
  split at isAsked
  · cases isAsked
  · split at isAsked
    · cases isAsked
    · split at isAsked
      · cases isAsked
      · obtain ⟨child, _, same⟩ := List.mem_map.mp isAsked
        cases same

/-- As far as an evaluation can tell, the other arena holds at the node what this one does. -/
def AgreesAt (arena other : Arena) : NodeId → Prop
  | .expr id => ∀ expr shape, arena.expr id = .ok expr → arena.shape expr.form = .ok shape →
      ∃ kept keptShape, other.expr id = .ok kept ∧ kept.location = expr.location ∧
        other.shape kept.form = .ok keptShape ∧ shape.Resembles keptShape
  | .decl id => ∀ decl, arena.decl id = .ok decl →
      ∃ kept, other.decl id = .ok kept ∧ kept.location = decl.location ∧
        kept.form.nodeKind = decl.form.nodeKind

theorem ends_of_returns (returns : EvalM.Returns (arena.evaluateWithin length id)) :
    arena.Ends length id :=
  returns .cyclicTree

private theorem exists_shape_of_returns
    (returns : EvalM.Returns (arena.evaluateWithin (length + 1) id)) :
    ∃ expr shape, arena.expr id = .ok expr ∧ arena.shape expr.form = .ok shape := by
  cases found : arena.expr id with
  | error fault => exact absurd (evaluateWithin_missing found) (returns fault)
  | ok expr =>
      cases resolved : arena.shape expr.form with
      | error fault => exact absurd (evaluateWithin_unresolved found resolved) (returns fault)
      | ok shape => exact ⟨expr, shape, rfl, resolved⟩

private theorem executes_of_asked {expr : Expr} {shape : Shape} {child : ExprId}
    (ends : arena.Ends (length + 1) id) (found : arena.expr id = .ok expr)
    (resolved : arena.shape expr.form = .ok shape)
    (isAsked : child ∈ shape.asked (arena.evaluateWithin length)) :
    arena.Executes (.expr id) (.expr child) := by
  have sameAsked : shape.asked (fun child => arena.evaluate (.expr child)) =
      shape.asked (arena.evaluateWithin length) := by
    apply Shape.asked_congr
    intro child isAsked
    exact (ends.asked found resolved isAsked).evaluate_eq.symm
  apply Relation.ReflTransGen.single
  rw [asked, found]
  simp only [resolved, sameAsked]
  exact List.mem_map_of_mem isAsked

private theorem evaluateWithin_of_agrees
    (returns : EvalM.Returns (arena.evaluateWithin length id))
    (agrees : ∀ node, arena.Executes (.expr id) node → arena.AgreesAt other node) :
    other.evaluateWithin length id = arena.evaluateWithin length id := by
  induction length generalizing id with
  | zero => exact absurd rfl (returns .cyclicTree)
  | succ length ih =>
      obtain ⟨expr, shape, found, resolved⟩ := exists_shape_of_returns returns
      obtain ⟨kept, keptShape, foundToo, sameLocation, resolvedToo, resembles⟩ :=
        agrees (.expr id) .refl expr shape found resolved
      have ends := ends_of_returns returns
      rw [evaluateWithin_succ foundToo resolvedToo, evaluateWithin_succ found resolved, sameLocation]
      apply resembles.evaluateShape_eq
      intro child isAsked
      apply ih
      · intro fault fails
        apply returns fault
        rw [evaluateWithin_succ found resolved]
        exact evaluateShape_of_asked_error expr.location isAsked fails
      · intro node executes
        exact agrees node ((executes_of_asked ends found resolved isAsked).trans executes)

theorem evaluate_of_agrees (returns : EvalM.Returns (arena.evaluate root))
    (agrees : ∀ node, arena.Executes root node → arena.AgreesAt other node) :
    other.evaluate root = arena.evaluate root := by
  cases root with
  | expr id =>
      have same := evaluateWithin_of_agrees returns agrees
      have ends : other.Ends arena.pathBound id := by
        unfold Ends
        rw [same]
        exact returns .cyclicTree
      rw [← ends.evaluate_eq, same]
      rfl
  | decl id =>
      cases found : arena.decl id with
      | error fault =>
          apply absurd _ (returns fault)
          rw [evaluate, found]
          rfl
      | ok decl =>
          obtain ⟨kept, foundToo, sameLocation, sameKind⟩ := agrees (.decl id) .refl decl found
          rw [evaluate, evaluate, found, foundToo]
          change EvalM.diagnose ((EvalError.unsupported kept.form.nodeKind).locatedAt kept.location) =
            EvalM.diagnose ((EvalError.unsupported decl.form.nodeKind).locatedAt decl.location)
          rw [sameLocation, sameKind]

/-- An evaluation that returns reads only what it executes. It returns the same in every arena
that agrees at the executed nodes, whatever else that arena holds; for one, expressions that are
not executed, declarations below the root and all names may be replaced by any others, fewer or
more. -/
theorem evaluate_reads_executed (returns : EvalM.Returns (arena.evaluate root)) :
    (∀ other : Arena, (∀ node, arena.Executes root node → arena.AgreesAt other node) →
      other.evaluate root = arena.evaluate root) ∧
    (∀ (exprs : Array Expr) (decls : Array Decl) (names : NameTable),
      (∀ id, arena.Executes root (.expr id) →
        exprs[id.index.toNat]? = arena.exprs[id.index.toNat]?) →
      (∀ id, root = .decl id → decls[id.index.toNat]? = arena.decls[id.index.toNat]?) →
        ({ arena with exprs := exprs, decls := decls, names := names } : Arena).evaluate root =
          arena.evaluate root) := by
  constructor
  · intro other agrees
    exact evaluate_of_agrees returns agrees
  · intro exprs decls names sameExprs sameDecls
    apply evaluate_of_agrees returns
    intro node executes
    cases node with
    | expr id =>
        intro expr shape found resolved
        refine ⟨expr, shape, ?_, rfl, ?_, .inl rfl⟩
        · rw [Arena.expr, sameExprs id executes]
          exact found
        · rw [← resolved]
          cases expr.form <;> rfl
    | decl id =>
        intro decl found
        have isRoot : root = .decl id := by
          rcases Relation.ReflTransGen.cases_tail executes with same | ⟨parent, _, isAsked⟩
          · exact same.symm
          · exact absurd isAsked (decl_not_asked parent id)
        refine ⟨decl, ?_, rfl, rfl⟩
        rw [Arena.decl, sameDecls id isRoot]
        exact found

end Arena

/-- A difference whose left operand is a sequence. The evaluation chooses a branch, comes to a
call and is over: the other branch and the right operand dangle, and the last element of the
sequence is the difference itself. -/
def interruptedDifference : Arena :=
  { Arena.initial with
    exprs := #[
      ⟨.int 0, ⟨1, 1⟩⟩,
      ⟨.int 5, ⟨1, 2⟩⟩,
      ⟨.ifThenElse ⟨0⟩ ⟨6⟩ ⟨1⟩, ⟨1, 3⟩⟩,
      ⟨.call ⟨0⟩ ⟨0, 1⟩ none, ⟨1, 4⟩⟩,
      ⟨.sequence ⟨0, 3⟩, ⟨1, 5⟩⟩,
      ⟨.binary .sub ⟨4⟩ ⟨6⟩, ⟨1, 6⟩⟩]
    exprLists := #[⟨2⟩, ⟨3⟩, ⟨5⟩] }

def overwrittenDifference : Arena :=
  { Arena.initial with
    exprs := #[
      ⟨.int 0, ⟨1, 1⟩⟩,
      ⟨.int 5, ⟨1, 2⟩⟩,
      ⟨.ifThenElse ⟨0⟩ ⟨6⟩ ⟨1⟩, ⟨1, 3⟩⟩,
      ⟨.call ⟨9⟩ ⟨4, 0⟩ (some ⟨9⟩), ⟨1, 4⟩⟩,
      ⟨.sequence ⟨1, 3⟩, ⟨1, 5⟩⟩,
      ⟨.binary .sub ⟨4⟩ ⟨6⟩, ⟨1, 6⟩⟩,
      ⟨.whileLoop ⟨5⟩ ⟨6⟩, ⟨1, 7⟩⟩]
    exprLists := #[⟨8⟩, ⟨2⟩, ⟨3⟩, ⟨5⟩] }

theorem evaluate_overwrittenDifference :
    EvalM.Returns (interruptedDifference.evaluate (.expr ⟨5⟩)) ∧
      (∀ node, interruptedDifference.Executes (.expr ⟨5⟩) node →
        interruptedDifference.AgreesAt overwrittenDifference node) ∧
      overwrittenDifference.evaluate (.expr ⟨5⟩) = interruptedDifference.evaluate (.expr ⟨5⟩) ∧
      interruptedDifference.evaluate (.expr ⟨5⟩) =
        EvalM.diagnose ((EvalError.unsupported .funCall).locatedAt ⟨1, 4⟩) := by
  have rejects : interruptedDifference.evaluate (.expr ⟨5⟩) =
      EvalM.diagnose ((EvalError.unsupported .funCall).locatedAt ⟨1, 4⟩) := rfl
  have returns : EvalM.Returns (interruptedDifference.evaluate (.expr ⟨5⟩)) := by
    rw [rejects]
    intro fault same
    cases same
  have agrees : ∀ node, interruptedDifference.Executes (.expr ⟨5⟩) node →
      interruptedDifference.AgreesAt overwrittenDifference node := by
    intro node executes
    have executed : node ∈ [NodeId.expr ⟨5⟩, .expr ⟨4⟩, .expr ⟨2⟩, .expr ⟨0⟩, .expr ⟨1⟩, .expr ⟨3⟩] :=
      executes.mem (by decide) (by decide)
    simp only [List.mem_cons, List.not_mem_nil, or_false] at executed
    rcases executed with rfl | rfl | rfl | rfl | rfl | rfl
    case inr.inr.inr.inr.inr =>
      intro expr shape found resolved
      cases found
      cases resolved
      exact ⟨_, _, rfl, rfl, rfl, .inr ⟨rfl, rfl⟩⟩
    all_goals
      intro expr shape found resolved
      cases found
      cases resolved
      exact ⟨_, _, rfl, rfl, rfl, .inl rfl⟩
  exact ⟨returns, agrees,
    (Arena.evaluate_reads_executed returns).1 overwrittenDifference agrees, rejects⟩

end TigerTree
