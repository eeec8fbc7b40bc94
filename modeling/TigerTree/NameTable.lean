import TigerTree.Fault
import TigerTree.Node

/-! The table of interned texts: an index from text to name and the texts in order of their names.
A table grown from `initial` keeps the two in step; a table that was read from outside need not,
and every operation is defined on it all the same. -/

set_option autoImplicit false

namespace TigerTree

structure NameTable where
  /-- The first entry of a text decides. Programs use few distinct texts, so a scan suffices. -/
  index : List (String × Name)
  texts : Array String
  deriving DecidableEq

structure NameTable.Full where
  count : Nat
  deriving DecidableEq

namespace NameTable

def Full.message (full : Full) : String :=
  "interner exceeded capacity: " ++ toString full.count ++ " strings, max is " ++
    toString (wordLimit - 1)

def initial : NameTable := ⟨[("", Name.empty)], #[""]⟩

instance : Inhabited NameTable := ⟨initial⟩

/-- The name of a text that the index knows. -/
def find? (table : NameTable) (text : String) : Option Name :=
  table.index.lookup text

def text (table : NameTable) (name : Name) : Except Fault String :=
  match table.texts[name.index.toNat]? with
  | some text => .ok text
  | none => .error .indexOutOfBounds

def size (table : NameTable) : Nat := table.texts.size

def push (table : NameTable) (text : String) : NameTable :=
  { index := (text, ⟨table.texts.size.toUInt32⟩) :: table.index
    texts := table.texts.push text }

/-- The name of a text, after adding the text if the index does not know it. -/
def intern (text : String) : EStateM Full NameTable Name := fun table =>
  match table.find? text with
  | some name => .ok name table
  | none =>
      if table.size < wordLimit then .ok ⟨table.size.toUInt32⟩ (table.push text)
      else .error ⟨table.size⟩ table

end NameTable
end TigerTree
