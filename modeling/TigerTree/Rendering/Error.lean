import TigerTree.Location
import TigerTree.Violation

/-! What can be wrong with a tree that is to be rendered, or with the sink that takes its text. -/

set_option autoImplicit false

namespace TigerTree

inductive RenderError where
  | violated (violation : Violation) (location : Location)
  | undelivered (reason : String)
  deriving DecidableEq

namespace RenderError

def message : RenderError → String
  | .violated violation location => location.label ("internal error: " ++ violation.message)
  | .undelivered reason => "failed to write rendered output: " ++ reason

end RenderError
end TigerTree
