/-! Source positions. Line and column count from 1; `0:0` marks a node that stands for no text. -/

set_option autoImplicit false

namespace TigerTree

structure Location where
  line : UInt32
  column : UInt32
  deriving DecidableEq, Inhabited

namespace Location

/-- The position of a synthesized node. -/
def dummy : Location := ⟨0, 0⟩

def isDummy (location : Location) : Bool :=
  location.line == 0 && location.column == 0

/-- Document order: by line, then by column. -/
def order (left right : Location) : Ordering :=
  (compare left.line.toNat right.line.toNat).then
    (compare left.column.toNat right.column.toNat)

def text (location : Location) : String :=
  toString location.line.toNat ++ ":" ++ toString location.column.toNat

/-- Puts the position in front of a message, unless there is none to show. -/
def label (location : Location) (message : String) : String :=
  if location.isDummy then message else location.text ++ ": " ++ message

end Location
end TigerTree
