import TigerTree.Arena

/-! One node of a tree with its own texts, links and lists looked up and its children left open. A
layer of an arena names its children by their indices; a layer of an unfolded tree holds them. -/

set_option autoImplicit false

namespace TigerTree

structure Site where
  location : Location
  depth : UInt32
  deriving DecidableEq

structure Heading where
  name : Except Fault String
  location : Location
  depth : UInt32
  typeName : Option (Except Fault String)
  type : SemanticType
  escapes : Bool

/-- The lowered name of a function, and whether it is the very name the function was given. -/
structure LoweredName where
  text : Except Fault String
  isOwn : Bool

/-- Where a `for` loop starts. The loop variable is a part of its loop, so the initializer is a
child of the loop itself. -/
inductive LoopStart (Child : Type) where
  | lost (fault : Fault)
  /-- The loop variable is not a variable with an initializer. -/
  | missing
  | bound (heading : Heading) (low : Child)

inductive Layer (Child : Type) where
  | broken (fault : Fault)
  | int (location : Location) (value : Int32)
  | string (location : Location) (contents : Except Fault String)
  | binary (location : Location) (operator : Operator) (left right : Child)
  | sequence (location : Location) (elements : List Child)
  | letIn (location : Location) (decls body : List Child)
  | identifier (location : Location) (name : Except Fault String)
      (site : Option (Except Fault Site)) (depth : UInt32)
  | ifThenElse (location : Location) (condition thenBranch elseBranch : Child)
  | call (location : Location) (function : Except Fault String)
      (site : Option (Except Fault Site)) (arguments : List Child)
  | whileLoop (location : Location) (condition body : Child)
  | forLoop (location : Location) (start : LoopStart Child) (high body : Child)
  | breakLoop (location : Location) (target : Option (Except Fault Location))
  | assign (location : Location) (target value : Child)
  | varDecl (heading : Heading) (initializer : Child)
  | parameter (heading : Heading)
  | funDecl (heading : Heading) (loweredName : Option LoweredName)
      (parameters : Except Fault (List Child)) (body : Child)

variable {Child Other Third : Type}

def LoopStart.map (change : Child → Other) : LoopStart Child → LoopStart Other
  | .lost fault => .lost fault
  | .missing => .missing
  | .bound heading low => .bound heading (change low)

def LoopStart.children : LoopStart Child → List Child
  | .lost _ | .missing => []
  | .bound _ low => [low]

namespace Layer

def map (change : Child → Other) : Layer Child → Layer Other
  | .broken fault => .broken fault
  | .int location value => .int location value
  | .string location contents => .string location contents
  | .binary location operator left right =>
      .binary location operator (change left) (change right)
  | .sequence location elements => .sequence location (elements.map change)
  | .letIn location decls body => .letIn location (decls.map change) (body.map change)
  | .identifier location name site depth => .identifier location name site depth
  | .ifThenElse location condition thenBranch elseBranch =>
      .ifThenElse location (change condition) (change thenBranch) (change elseBranch)
  | .call location function site arguments =>
      .call location function site (arguments.map change)
  | .whileLoop location condition body => .whileLoop location (change condition) (change body)
  | .forLoop location start high body =>
      .forLoop location (start.map change) (change high) (change body)
  | .breakLoop location target => .breakLoop location target
  | .assign location target value => .assign location (change target) (change value)
  | .varDecl heading initializer => .varDecl heading (change initializer)
  | .parameter heading => .parameter heading
  | .funDecl heading loweredName parameters body =>
      .funDecl heading loweredName (parameters.map (List.map change)) (change body)

def listed : Except Fault (List Child) → List Child
  | .ok children => children
  | .error _ => []

/-- The children in document order. Links are no children. -/
def children : Layer Child → List Child
  | .broken _ | .int _ _ | .string _ _ | .identifier _ _ _ _ | .breakLoop _ _ | .parameter _ =>
      []
  | .binary _ _ left right => [left, right]
  | .sequence _ elements => elements
  | .letIn _ decls body => decls ++ body
  | .ifThenElse _ condition thenBranch elseBranch => [condition, thenBranch, elseBranch]
  | .call _ _ _ arguments => arguments
  | .whileLoop _ condition body => [condition, body]
  | .forLoop _ start high body => start.children ++ [high, body]
  | .assign _ target value => [target, value]
  | .varDecl _ initializer => [initializer]
  | .funDecl _ _ parameters body => listed parameters ++ [body]

theorem map_congr {first second : Child → Other} (layer : Layer Child)
    (agree : ∀ child ∈ layer.children, first child = second child) :
    layer.map first = layer.map second := by
  cases layer with
  | forLoop location start high body =>
      cases start <;> simp_all [children, LoopStart.children, map, LoopStart.map]
  | funDecl heading loweredName parameters body =>
      cases parameters <;> simp_all [children, listed, map, Except.map]
  | _ => simp_all [children, map]

theorem children_map (change : Child → Other) (layer : Layer Child) :
    (layer.map change).children = layer.children.map change := by
  cases layer with
  | forLoop location start high body =>
      cases start <;> simp [children, LoopStart.children, map, LoopStart.map]
  | funDecl heading loweredName parameters body =>
      cases parameters <;> simp [children, listed, map, Except.map]
  | _ => simp [children, map]

theorem map_map (first : Child → Other) (second : Other → Third) (layer : Layer Child) :
    (layer.map first).map second = layer.map (fun child => second (first child)) := by
  cases layer with
  | forLoop location start high body => cases start <;> simp [map, LoopStart.map]
  | funDecl heading loweredName parameters body =>
      cases parameters <;> simp [map, Except.map]
  | _ => simp [map]

end Layer

namespace Arena

def site (arena : Arena) (link : DeclId) : Except Fault Site :=
  (arena.decl link).map (fun decl => ⟨decl.location, decl.depth⟩)

def heading (arena : Arena) (decl : Decl) : Heading where
  name := arena.text decl.name
  location := decl.location
  depth := decl.depth
  typeName := decl.typeName.map arena.text
  type := decl.type
  escapes := decl.escapes

def loopStart (arena : Arena) (loopVariable : DeclId) : LoopStart NodeId :=
  match arena.decl loopVariable with
  | .error fault => .lost fault
  | .ok decl =>
      match decl.form with
      | .value (some low) => .bound (arena.heading decl) (.expr low)
      | _ => .missing

def shapeLayer (arena : Arena) (location : Location) : Shape → Layer NodeId
  | .int value => .int location value
  | .string contents => .string location (arena.text contents)
  | .binary operator left right => .binary location operator (.expr left) (.expr right)
  | .sequence elements => .sequence location (elements.map .expr)
  | .letIn decls body => .letIn location (decls.map .decl) (body.map .expr)
  | .identifier name link depth =>
      .identifier location (arena.text name) (link.map arena.site) depth
  | .ifThenElse condition thenBranch elseBranch =>
      .ifThenElse location (.expr condition) (.expr thenBranch) (.expr elseBranch)
  | .call function arguments link =>
      .call location (arena.text function) (link.map arena.site) (arguments.map .expr)
  | .whileLoop condition body => .whileLoop location (.expr condition) (.expr body)
  | .forLoop loopVariable high body =>
      .forLoop location (arena.loopStart loopVariable) (.expr high) (.expr body)
  | .breakLoop target =>
      .breakLoop location (target.map (fun loop => (arena.expr loop).map Expr.location))
  | .assign target value => .assign location (.expr target) (.expr value)

def declLayer (arena : Arena) (decl : Decl) : Layer NodeId :=
  match decl.form with
  | .value (some initializer) => .varDecl (arena.heading decl) (.expr initializer)
  | .value none => .parameter (arena.heading decl)
  | .function parameters body loweredName =>
      .funDecl (arena.heading decl)
        (loweredName.map (fun symbol => ⟨arena.text symbol, symbol = decl.name⟩))
        ((arena.declList parameters).map (List.map .decl)) (.expr body)

/-- The node as every walk finds it. -/
def layer (arena : Arena) : NodeId → Layer NodeId
  | .expr id =>
      match arena.expr id with
      | .error fault => .broken fault
      | .ok expr =>
          match arena.shape expr.form with
          | .error fault => .broken fault
          | .ok shape => arena.shapeLayer expr.location shape
  | .decl id =>
      match arena.decl id with
      | .error fault => .broken fault
      | .ok decl => arena.declLayer decl

variable {arena : Arena}

theorem layer_expr {id : ExprId} {expr : Expr} {shape : Shape} (found : arena.expr id = .ok expr)
    (resolved : arena.shape expr.form = .ok shape) :
    arena.layer (.expr id) = arena.shapeLayer expr.location shape := by
  simp only [layer, found, resolved]

theorem layer_expr_missing {id : ExprId} {fault : Fault} (missing : arena.expr id = .error fault) :
    arena.layer (.expr id) = .broken fault := by
  simp only [layer, missing]

theorem layer_expr_unresolved {id : ExprId} {expr : Expr} {fault : Fault}
    (found : arena.expr id = .ok expr) (unresolved : arena.shape expr.form = .error fault) :
    arena.layer (.expr id) = .broken fault := by
  simp only [layer, found, unresolved]

theorem layer_decl {id : DeclId} {decl : Decl} (found : arena.decl id = .ok decl) :
    arena.layer (.decl id) = arena.declLayer decl := by
  simp only [layer, found]

theorem layer_decl_missing {id : DeclId} {fault : Fault} (missing : arena.decl id = .error fault) :
    arena.layer (.decl id) = .broken fault := by
  simp only [layer, missing]

/-- What holds of broken layers and of the layers of all stored nodes holds of every layer. -/
@[elab_as_elim]
theorem layer_cases {property : Layer NodeId → Prop}
    (broken : ∀ fault, property (.broken fault))
    (expr : ∀ location shape, property (arena.shapeLayer location shape))
    (decl : ∀ decl, property (arena.declLayer decl)) (node : NodeId) :
    property (arena.layer node) := by
  cases node with
  | expr id =>
      cases found : arena.expr id with
      | error fault => exact layer_expr_missing found ▸ broken fault
      | ok stored =>
          cases resolved : arena.shape stored.form with
          | error fault => exact layer_expr_unresolved found resolved ▸ broken fault
          | ok shape => exact layer_expr found resolved ▸ expr stored.location shape
  | decl id =>
      cases found : arena.decl id with
      | error fault => exact layer_decl_missing found ▸ broken fault
      | ok stored => exact layer_decl found ▸ decl stored

end Arena
end TigerTree
