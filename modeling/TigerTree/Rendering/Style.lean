/-! How a tree is to be written: the width of one indentation level, and whether links, captures
and lowered names are added as comments. -/

set_option autoImplicit false

namespace TigerTree

structure Style where
  indentSize : UInt64
  verbose : Bool
  deriving DecidableEq

namespace Style

def defaultIndentSize : UInt64 := 2

def plain : Style := ⟨defaultIndentSize, false⟩

def commented : Style := ⟨defaultIndentSize, true⟩

def indentedBy (indentSize : UInt64) : Style := ⟨indentSize, false⟩

instance : Inhabited Style := ⟨plain⟩

end Style
end TigerTree
