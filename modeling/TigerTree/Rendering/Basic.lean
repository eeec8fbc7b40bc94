import TigerTree.Arena
import TigerTree.Rendering.Draft

/-! Program text of a tree. Every operation is parenthesized; a sequence, the two parts of a
`let` and the three of an `if` take lines of their own, one level deeper; the body of a loop or
function starts a line one level deeper and closes without one. Comments only add to the text. -/

set_option autoImplicit false

namespace TigerTree

open Draft (text comment literal indent dedent breakLine openBlock closeBlock look violated
  eachAfter joined)

def draftName (arena : Arena) (name : Name) : DraftM Unit := do
  let spelling ← look (arena.text name)
  text spelling

def draftSite (arena : Arena) : Option DeclId → DraftM Unit
  | none => pure ()
  | some link => do
      let decl ← look (arena.decl link)
      comment ("decl:" ++ decl.location.text)

/-- Like `draftSite`, and how many scopes the use lies below the declaration if it is elsewhere. -/
def draftUse (arena : Arena) (depth : UInt32) : Option DeclId → DraftM Unit
  | none => pure ()
  | some link => do
      let decl ← look (arena.decl link)
      let distance : Int := (depth.toNat : Int) - (decl.depth.toNat : Int)
      if distance = 0 then
        comment ("decl:" ++ decl.location.text)
      else
        comment ("decl:" ++ decl.location.text ++ " depth_diff:" ++ toString distance)

def draftLoop (arena : Arena) : Option ExprId → DraftM Unit
  | none => pure ()
  | some target => do
      let loop ← look (arena.expr target)
      comment ("loop:" ++ loop.location.text)

def draftCapture (verbose : Bool) (decl : Decl) : DraftM Unit :=
  if verbose && decl.escapes then comment "e" else pure ()

/-- Notes the lowered name of a function that has one of its own; names are compared by number. -/
def draftLoweredName (arena : Arena) (name : Name) : Option Name → DraftM Unit
  | none => pure ()
  | some symbol =>
      if symbol = name then pure ()
      else do
        let spelling ← look (arena.text symbol)
        comment spelling

def draftTypeName (arena : Arena) (typeName : Name) : DraftM Unit := do
  text ": "
  draftName arena typeName

/-- The written type of a variable, else the one that checking found if it can be written. -/
def draftVariableType (arena : Arena) (decl : Decl) : DraftM Unit :=
  match decl.typeName with
  | some typeName => draftTypeName arena typeName
  | none =>
      match decl.type.surfaceName? with
      | some spelling => do
          text ": "
          text spelling
      | none => pure ()

@[inline]
def draftLines (draft : NodeId → DraftM Unit) (elements : List ExprId) : DraftM Unit := do
  breakLine
  joined (do text ";"; breakLine) (fun id => draft (.expr id)) elements

@[inline]
def draftBlock (draft : NodeId → DraftM Unit) (body : ExprId) : DraftM Unit := do
  openBlock
  draft (.expr body)
  dedent

/-- The text of an expression, once it is known how its children are drafted. -/
@[inline]
def draftShape (arena : Arena) (verbose : Bool) (draft : NodeId → DraftM Unit)
    (location : Location) : Shape → DraftM Unit
  | .int value => text (toString value.toInt)
  | .string contents => do
      let contents ← look (arena.text contents)
      literal contents
  | .binary operator left right => do
      text "("
      draft (.expr left)
      text (" " ++ operator.symbol ++ " ")
      draft (.expr right)
      text ")"
  | .sequence [] => violated .emptySequence location
  | .sequence elements => do
      text "("
      indent
      draftLines draft elements
      closeBlock
      text ")"
  | .letIn _ [] => violated .emptyLetBody location
  | .letIn decls body => do
      text "let"
      indent
      eachAfter breakLine (fun id => draft (.decl id)) decls
      closeBlock
      text "in"
      indent
      draftLines draft body
      closeBlock
      text "end"
  | .identifier name link depth => do
      draftName arena name
      if verbose then draftUse arena depth link else pure ()
  | .ifThenElse condition thenBranch elseBranch => do
      text "if"
      openBlock
      draft (.expr condition)
      closeBlock
      text "then"
      openBlock
      draft (.expr thenBranch)
      closeBlock
      text "else"
      draftBlock draft elseBranch
  | .call function arguments link => do
      draftName arena function
      if verbose then draftSite arena link else pure ()
      text "("
      joined (text ", ") (fun id => draft (.expr id)) arguments
      text ")"
  | .whileLoop condition body => do
      text "while "
      draft (.expr condition)
      text " do"
      draftBlock draft body
  | .forLoop loopVariable high body => do
      let decl ← look (arena.decl loopVariable)
      match decl.form with
      | .value (some low) => do
          text "for "
          draftName arena decl.name
          draftCapture verbose decl
          text " := "
          draft (.expr low)
          text " to "
          draft (.expr high)
          text " do"
          draftBlock draft body
      | _ => violated .missingLoopBound location
  | .breakLoop target => do
      text "break"
      if verbose then draftLoop arena target else pure ()
  | .assign target value => do
      draft (.expr target)
      text " := "
      draft (.expr value)

@[inline]
def draftDecl (arena : Arena) (verbose : Bool) (draft : NodeId → DraftM Unit) (decl : Decl) :
    DraftM Unit :=
  match decl.form with
  | .value initializer => do
      if initializer.isSome then text "var " else pure ()
      draftName arena decl.name
      draftCapture verbose decl
      draftVariableType arena decl
      match initializer with
      | some initializer => do
          text " := "
          draft (.expr initializer)
      | none => pure ()
  | .function parameters body loweredName => do
      text "function "
      draftName arena decl.name
      if verbose then draftLoweredName arena decl.name loweredName else pure ()
      text "("
      let parameters ← look (arena.declList parameters)
      joined (text ", ") (fun id => draft (.decl id)) parameters
      text ")"
      match decl.typeName with
      | some typeName => draftTypeName arena typeName
      | none => pure ()
      text " ="
      draftBlock draft body

/-- The text of a node below which paths have at most the given length. -/
def Arena.draftWithin (arena : Arena) (verbose : Bool) : Nat → NodeId → DraftM Unit
  | 0, _ => look (.error .cyclicTree)
  | length + 1, .expr id => do
      let expr ← look (arena.expr id)
      let shape ← look (arena.shape expr.form)
      draftShape arena verbose (arena.draftWithin verbose length) expr.location shape
  | length + 1, .decl id => do
      let decl ← look (arena.decl id)
      draftDecl arena verbose (arena.draftWithin verbose length) decl

/-- Renders a node where the page stands, in the style of the page. If that stops early, the page
keeps what was written and the level that was reached. -/
def Arena.renderOn (arena : Arena) (node : NodeId) : EStateM (Stop RenderError) Page Unit :=
  fun page =>
    match arena.draftWithin page.style.verbose arena.pathBound node Draft.blank with
    | .ok _ draft =>
        match draft.layOn page with
        | .ok _ page => .ok () page
        | .error fault page => .error (.faulted fault) page
    | .error stop draft =>
        match draft.layOn page with
        | .ok _ page => .error stop page
        | .error fault page => .error (.faulted fault) page

/-- The text of a node. -/
def Arena.render (arena : Arena) (style : Style) (node : NodeId) :
    Except (Stop RenderError) String :=
  match arena.renderOn node (Page.blank style) with
  | .ok _ page => .ok page.text
  | .error stop _ => .error stop

end TigerTree
