import TigerTree.Fault
import TigerTree.Rendering.Style

/-! A text in progress with its indentation level. A block is opened by raising the level and
closed by lowering it; the width of a line's indentation is level times indentation size, and a
width beyond 64 bits is a fault that leaves the text alone. -/

set_option autoImplicit false

namespace TigerTree

structure Page where
  text : String
  level : Nat
  style : Style
  deriving DecidableEq

/-- A writing step. One that fails keeps what it had already done. -/
abbrev PageM := EStateM Fault Page

namespace Page

/-- Widths are 64-bit words. -/
def widthLimit : Nat := UInt64.size

def blank (style : Style) : Page := ⟨"", 0, style⟩

instance : Inhabited Page := ⟨blank Style.plain⟩

def indentWidth (page : Page) : Except Fault Nat :=
  let width := page.level * page.style.indentSize.toNat
  if width < widthLimit then .ok width else .error .arithmeticOverflow

def emit (fragment : String) : PageM Unit := fun page =>
  .ok () { page with text := page.text ++ fragment }

def currentLevel : PageM Nat := fun page =>
  .ok page.level page

def setLevel (level : Nat) : PageM Unit := fun page =>
  .ok () { page with level := level }

def indent : PageM Unit := fun page =>
  .ok () { page with level := page.level + 1 }

/-- Lowers the level, which stops at zero. -/
def dedent : PageM Unit := fun page =>
  .ok () { page with level := page.level - 1 }

def breakLine : PageM Unit := fun page =>
  match page.indentWidth with
  | .ok width => .ok () { page with text := (page.text.push '\n').pushn ' ' width }
  | .error fault => .error fault page

def openBlock : PageM Unit := do
  indent
  breakLine

def closeBlock : PageM Unit := do
  dedent
  breakLine

end Page
end TigerTree
