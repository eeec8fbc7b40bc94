/-! Types that checking attaches to declarations. -/

set_option autoImplicit false

namespace TigerTree

/-- The type of a declaration; `undefined` also stands for "not checked yet". -/
inductive SemanticType where
  | int
  | string
  | void
  | undefined
  deriving DecidableEq

namespace SemanticType

instance : Inhabited SemanticType := ⟨.undefined⟩

def all : List SemanticType := [.int, .string, .void, .undefined]

def tag : SemanticType → String
  | .int => "Int"
  | .string => "String"
  | .void => "Void"
  | .undefined => "Undefined"

def ofTag? (tag : String) : Option SemanticType :=
  all.find? (fun type => type.tag == tag)

def text : SemanticType → String
  | .int => "int"
  | .string => "string"
  | .void => "void"
  | .undefined => "undefined"

/-- The spelling in a program; `void` and `undefined` cannot be written in one. -/
def surfaceName? : SemanticType → Option String
  | .int => some "int"
  | .string => some "string"
  | .void | .undefined => none

end SemanticType
end TigerTree
