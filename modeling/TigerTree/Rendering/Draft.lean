import TigerTree.Rendering.Error
import TigerTree.Rendering.Literal
import TigerTree.Rendering.Page

/-! A rendered node before its place on a page is known: pieces of text and line breaks whose
levels count from the level at which the node will start. -/

set_option autoImplicit false

namespace TigerTree

inductive Piece where
  | text (text : String)
  | literal (contents : String)
  | comment (text : String)
  /-- A line break with the level of the line that follows. -/
  | line (level : Nat)
  deriving DecidableEq

structure Draft where
  pieces : Array Piece
  level : Nat
  deriving DecidableEq

/-- A drafting step. One that stops keeps what it had already done. -/
abbrev DraftM := EStateM (Stop RenderError) Draft

namespace Draft

def blank : Draft := ⟨#[], 0⟩

@[inline]
def put (piece : Piece) : DraftM Unit := fun draft =>
  .ok () { draft with pieces := draft.pieces.push piece }

def text (text : String) : DraftM Unit :=
  put (.text text)

def comment (text : String) : DraftM Unit :=
  put (.comment text)

def literal (contents : String) : DraftM Unit :=
  put (.literal contents)

def indent : DraftM Unit := fun draft =>
  .ok () { draft with level := draft.level + 1 }

def dedent : DraftM Unit := fun draft =>
  .ok () { draft with level := draft.level - 1 }

def breakLine : DraftM Unit := fun draft =>
  .ok () { draft with pieces := draft.pieces.push (.line draft.level) }

def openBlock : DraftM Unit := do
  indent
  breakLine

def closeBlock : DraftM Unit := do
  dedent
  breakLine

@[inline]
def look {Result : Type} (lookup : Except Fault Result) : DraftM Result := fun draft =>
  match lookup with
  | .ok result => .ok result draft
  | .error fault => .error (.faulted fault) draft

def violated (violation : Violation) (location : Location) : DraftM Unit := fun draft =>
  .error (.diagnosed (.violated violation location)) draft

@[specialize]
def eachAfter {Node : Type} (lead : DraftM Unit) (draft : Node → DraftM Unit) :
    List Node → DraftM Unit
  | [] => pure ()
  | node :: rest => do
      lead
      draft node
      eachAfter lead draft rest

@[specialize]
def joined {Node : Type} (separator : DraftM Unit) (draft : Node → DraftM Unit) :
    List Node → DraftM Unit
  | [] => pure ()
  | node :: rest => do
      draft node
      eachAfter separator draft rest

def place (base : Nat) : Piece → PageM Unit
  | .text text => Page.emit text
  | .literal contents => Page.emit (Literal.quote contents)
  | .comment text => Page.emit ("/*" ++ text ++ "*/")
  | .line level => do
      Page.setLevel (base + level)
      Page.breakLine

/-- Writes a draft at the level of the page. The first line that is too wide ends the writing. -/
def layOn (draft : Draft) : PageM Unit := do
  let base ← Page.currentLevel
  draft.pieces.toList.forM (place base)
  Page.setLevel (base + draft.level)

end Draft
end TigerTree
