/-! Binary operators. Integers are signed 32-bit words: arithmetic wraps, division truncates
toward zero, and a comparison yields 1 or 0 since the language has no truth values. -/

set_option autoImplicit false

namespace TigerTree

inductive Operator where
  | add
  | sub
  | mul
  | div
  | eq
  | lt
  | gt
  | le
  | ge
  deriving DecidableEq

namespace Operator

def all : List Operator := [.add, .sub, .mul, .div, .eq, .lt, .gt, .le, .ge]

def position (operator : Operator) : Nat := all.idxOf operator

def tag : Operator → String
  | .add => "Add"
  | .sub => "Sub"
  | .mul => "Mul"
  | .div => "Div"
  | .eq => "Eq"
  | .lt => "Lt"
  | .gt => "Gt"
  | .le => "Le"
  | .ge => "Ge"

def ofTag? (tag : String) : Option Operator :=
  all.find? (fun operator => operator.tag == tag)

def symbol : Operator → String
  | .add => "+"
  | .sub => "-"
  | .mul => "*"
  | .div => "/"
  | .eq => "="
  | .lt => "<"
  | .gt => ">"
  | .le => "<="
  | .ge => ">="

/-- The integer that stands for a truth value. -/
def truth (holds : Bool) : Int32 := if holds then 1 else 0

def compute? (operator : Operator) (left right : Int32) : Option Int32 :=
  match operator with
  | .add => some (left + right)
  | .sub => some (left - right)
  | .mul => some (left * right)
  | .div => if right = 0 then none else some (left / right)
  | .eq => some (truth (left = right))
  | .lt => some (truth (left < right))
  | .gt => some (truth (right < left))
  | .le => some (truth (left ≤ right))
  | .ge => some (truth (right ≤ left))

end Operator
end TigerTree
