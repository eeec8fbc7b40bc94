import TigerTree.Arena
import TigerTree.Evaluation.Error

/-! The value of a tree: integers, operators, sequences and conditionals have one, every other
node is rejected where it is met. Operands are evaluated from left to right and the first failure
ends the evaluation; of a conditional only the chosen branch is looked at. -/

set_option autoImplicit false

namespace TigerTree

abbrev EvalM := Except (Stop EvalError)

namespace EvalM

def operate (operator : Operator) (left right : Int32) : Except EvalError Int32 :=
  match operator.compute? left right with
  | some value => .ok value
  | none => .error EvalError.divisionByZero

def diagnose {Result : Type} (error : EvalError) : EvalM Result :=
  .error (.diagnosed error)

end EvalM

@[specialize]
def evaluateElements (evaluate : ExprId → EvalM Int32) : ExprId → List ExprId → EvalM Int32
  | element, [] => evaluate element
  | element, next :: rest => do
      let _ ← evaluate element
      evaluateElements evaluate next rest

/-- The value of an expression, once it is known how its children are evaluated. The lists of the
expression are looked up first, whatever its kind. -/
@[inline]
def evaluateShape (evaluate : ExprId → EvalM Int32) (location : Location) :
    Shape → EvalM Int32
  | .int value => .ok value
  | .binary operator left right => do
      let left ← evaluate left
      let right ← evaluate right
      match EvalM.operate operator left right with
      | .ok value => .ok value
      | .error error => EvalM.diagnose (error.locatedAt location)
  | .sequence [] => EvalM.diagnose (EvalError.emptySequence.locatedAt location)
  | .sequence (element :: rest) => evaluateElements evaluate element rest
  | .ifThenElse condition thenBranch elseBranch => do
      let condition ← evaluate condition
      if condition ≠ 0 then evaluate thenBranch else evaluate elseBranch
  | shape => EvalM.diagnose ((EvalError.unsupported shape.nodeKind).locatedAt location)

def Arena.evaluateWithin (arena : Arena) : Nat → ExprId → EvalM Int32
  | 0, _ => .error (.faulted .cyclicTree)
  | length + 1, id => do
      let expr ← Stop.ofLookup (arena.expr id)
      let shape ← Stop.ofLookup (arena.shape expr.form)
      evaluateShape (arena.evaluateWithin length) expr.location shape

/-- The value of a node. Declarations have none. -/
def Arena.evaluate (arena : Arena) : NodeId → EvalM Int32
  | .expr id => arena.evaluateWithin arena.pathBound id
  | .decl id => do
      let decl ← Stop.ofLookup (arena.decl id)
      EvalM.diagnose ((EvalError.unsupported decl.form.nodeKind).locatedAt decl.location)

end TigerTree
