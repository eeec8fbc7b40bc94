import TigerTree.Fault
import TigerTree.Location
import TigerTree.NodeKind
import TigerTree.Violation

/-! What can be wrong with a tree that is to be evaluated. -/

set_option autoImplicit false

namespace TigerTree

inductive EvalCause where
  | unsupported (construct : NodeKind)
  | violated (violation : Violation)
  deriving DecidableEq

structure EvalError where
  cause : EvalCause
  location : Option Location
  deriving DecidableEq

def EvalCause.message : EvalCause → String
  | .unsupported construct => "cannot evaluate " ++ construct.construct
  | .violated violation => violation.message

namespace EvalError

def unsupported (construct : NodeKind) : EvalError := ⟨.unsupported construct, none⟩

def violated (violation : Violation) : EvalError := ⟨.violated violation, none⟩

def divisionByZero : EvalError := violated .divisionByZero

def emptySequence : EvalError := violated .emptySequence

/-- Names the offending node; the last naming counts. -/
def locatedAt (error : EvalError) (location : Location) : EvalError :=
  { error with location := some location }

def message (error : EvalError) : String :=
  match error.location with
  | some location => location.label error.cause.message
  | none => error.cause.message

end EvalError
end TigerTree
