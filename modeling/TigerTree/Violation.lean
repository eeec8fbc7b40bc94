/-! Structural preconditions that a tree may break. They belong to the tree and not to one
consumer: evaluation and rendering report the same ones. -/

set_option autoImplicit false

namespace TigerTree

inductive Violation where
  | emptySequence
  | emptyLetBody
  | divisionByZero
  | missingLoopBound
  deriving DecidableEq

namespace Violation

def all : List Violation :=
  [.emptySequence, .emptyLetBody, .divisionByZero, .missingLoopBound]

def tag : Violation → String
  | .emptySequence => "EmptySequence"
  | .emptyLetBody => "EmptyLetBody"
  | .divisionByZero => "DivisionByZero"
  | .missingLoopBound => "MissingLoopBound"

def ofTag? (tag : String) : Option Violation :=
  all.find? (fun violation => violation.tag == tag)

def message : Violation → String
  | .emptySequence => "empty sequence expression"
  | .emptyLetBody => "empty let body"
  | .divisionByZero => "division by zero"
  | .missingLoopBound => "for loop variable has no initial value"

end Violation
end TigerTree
