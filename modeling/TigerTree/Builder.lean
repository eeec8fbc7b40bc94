import TigerTree.Arena

/-! Growing a tree node by node. Every node gets the location in force when it is built, every
identifier and declaration also the depth. Children are not looked at, so they may be dangling;
links, types and capture marks come afterwards. -/

set_option autoImplicit false

namespace TigerTree

structure Builder where
  arena : Arena
  location : Location
  depth : UInt32
  deriving DecidableEq

abbrev BuildM := EStateM Fault Builder

namespace Builder

def initial : Builder := ⟨Arena.initial, Location.dummy, 0⟩

instance : Inhabited Builder := ⟨initial⟩

def onArena {Result : Type} (change : ArenaM Result) : BuildM Result := fun builder =>
  match builder with
  | ⟨arena, location, depth⟩ =>
      match change arena with
      | .ok result arena => .ok result ⟨arena, location, depth⟩
      | .error fault arena => .error fault ⟨arena, location, depth⟩

def moveTo (location : Location) : BuildM Unit :=
  modify (fun builder => { builder with location := location })

def enterDepth (depth : UInt32) : BuildM Unit :=
  modify (fun builder => { builder with depth := depth })

def currentLocation : BuildM Location :=
  fun builder => .ok builder.location builder

def currentDepth : BuildM UInt32 :=
  fun builder => .ok builder.depth builder

def add (form : StoredForm) : BuildM ExprId := do
  let location ← currentLocation
  onArena (Arena.addExpr ⟨form, location⟩)

def int (value : Int32) : BuildM ExprId :=
  add (.int value)

def string (contents : String) : BuildM ExprId := do
  let name ← onArena (Arena.intern contents)
  add (.string name)

def binary (operator : Operator) (left right : ExprId) : BuildM ExprId :=
  add (.binary operator left right)

def sequence (elements : List ExprId) : BuildM ExprId := do
  let range ← onArena (Arena.addExprList elements)
  add (.sequence range)

def letIn (decls : List DeclId) (body : List ExprId) : BuildM ExprId := do
  let declRange ← onArena (Arena.addDeclList decls)
  let bodyRange ← onArena (Arena.addExprList body)
  add (.letIn declRange bodyRange)

def identifier (text : String) : BuildM ExprId := do
  let name ← onArena (Arena.intern text)
  let depth ← currentDepth
  add (.identifier name none depth)

def ifThenElse (condition thenBranch elseBranch : ExprId) : BuildM ExprId :=
  add (.ifThenElse condition thenBranch elseBranch)

def call (function : String) (arguments : List ExprId) : BuildM ExprId := do
  let name ← onArena (Arena.intern function)
  let range ← onArena (Arena.addExprList arguments)
  add (.call name range none)

def whileLoop (condition body : ExprId) : BuildM ExprId :=
  add (.whileLoop condition body)

def forLoop (loopVariable : DeclId) (high body : ExprId) : BuildM ExprId :=
  add (.forLoop loopVariable high body)

def breakLoop : BuildM ExprId :=
  add (.breakLoop none)

def assign (target value : ExprId) : BuildM ExprId :=
  add (.assign target value)

/-- The name is interned before the type name, so it gets the smaller number of two new ones. -/
def declare (text : String) (typeText : Option String) (form : DeclForm) :
    BuildM DeclId := do
  let name ← onArena (Arena.intern text)
  let typeName ← typeText.mapM (fun text => onArena (Arena.intern text))
  let location ← currentLocation
  let depth ← currentDepth
  onArena (Arena.addDecl
    { name := name
      location := location
      depth := depth
      typeName := typeName
      type := .undefined
      escapes := false
      form := form })

def declareVariable (text : String) (typeText : Option String) (initializer : ExprId) :
    BuildM DeclId :=
  declare text typeText (.value (some initializer))

def declareParameter (text : String) (typeText : Option String) : BuildM DeclId :=
  declare text typeText (.value none)

def declareFunction (text : String) (parameters : List DeclId) (resultText : Option String)
    (body : ExprId) : BuildM DeclId := do
  let range ← onArena (Arena.addDeclList parameters)
  declare text resultText (.function range body none)

/-! ### Decorations

A setter whose subject is out of bounds is a fault; one whose subject has no such field answers
false and leaves it alone. -/

/-- Links an identifier or a call to its declaration, which is not looked at. -/
def resolve (use : ExprId) (target : DeclId) : BuildM Bool :=
  onArena (Arena.amendExpr use (Expr.withLink? target))

/-- Links a break to its loop. The loop is looked at first, so that only a loop is ever linked. -/
def resolveBreak (leave loop : ExprId) : BuildM Bool :=
  onArena (fun arena =>
    match arena.expr loop with
    | .error fault => .error fault arena
    | .ok expr =>
        if expr.form.isLoop then Arena.amendExpr leave (Expr.withLoop? loop) arena
        else .ok false arena)

def setEscapes (id : DeclId) (escapes : Bool) : BuildM Bool :=
  onArena (Arena.amendDecl id (fun decl => some { decl with escapes := escapes }))

def setType (id : DeclId) (type : SemanticType) : BuildM Bool :=
  onArena (Arena.amendDecl id (fun decl => some { decl with type := type }))

/-- Records the symbol that lowering chose. The text is interned in any case. -/
def setLoweredName (id : DeclId) (symbol : String) : BuildM Bool := do
  let name ← onArena (Arena.intern symbol)
  onArena (Arena.amendDecl id (Decl.withLoweredName? name))

end Builder
end TigerTree
