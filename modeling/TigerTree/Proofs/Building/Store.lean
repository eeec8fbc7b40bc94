import TigerTree.Proofs.Building.Calls

/-! A plain store of nodes. It holds one record for each node, with texts and lists as they were
given, and knows no tables of lists or names. A construction adds a record under the next index; a
setter writes one field of one record. -/

set_option autoImplicit false

namespace TigerTree

inductive ExprContent where
  | int (value : Int32)
  | string (contents : String)
  | binary (operator : Operator) (left right : ExprId)
  | sequence (elements : List ExprId)
  | letIn (decls : List DeclId) (body : List ExprId)
  | identifier (text : String) (link : Option DeclId) (depth : UInt32)
  | ifThenElse (condition thenBranch elseBranch : ExprId)
  | call (function : String) (arguments : List ExprId) (link : Option DeclId)
  | whileLoop (condition body : ExprId)
  | forLoop (loopVariable : DeclId) (high body : ExprId)
  | breakLoop (target : Option ExprId)
  | assign (target value : ExprId)
  deriving DecidableEq

def ExprContent.isLoop : ExprContent → Bool
  | .whileLoop _ _ | .forLoop _ _ _ => true
  | _ => false

structure ExprRecord where
  content : ExprContent
  location : Location
  deriving DecidableEq

inductive DeclContent where
  | value (initializer : Option ExprId)
  | function (parameters : List DeclId) (body : ExprId) (loweredText : Option String)
  deriving DecidableEq

structure DeclRecord where
  text : String
  location : Location
  depth : UInt32
  typeText : Option String
  type : SemanticType
  escapes : Bool
  content : DeclContent
  deriving DecidableEq

namespace ExprRecord

def withLink? (target : DeclId) (record : ExprRecord) : Option ExprRecord :=
  match record.content with
  | .identifier text _ depth =>
      some { record with content := .identifier text (some target) depth }
  | .call function arguments _ =>
      some { record with content := .call function arguments (some target) }
  | _ => none

def withLoop? (target : ExprId) (record : ExprRecord) : Option ExprRecord :=
  match record.content with
  | .breakLoop _ => some { record with content := .breakLoop (some target) }
  | _ => none

end ExprRecord

def DeclRecord.withLoweredText? (symbol : String) (record : DeclRecord) : Option DeclRecord :=
  match record.content with
  | .function parameters body _ =>
      some { record with content := .function parameters body (some symbol) }
  | .value _ => none

structure Store where
  exprs : List ExprRecord
  decls : List DeclRecord
  location : Location
  depth : UInt32

/-- A step on a store. One that fails leaves the store alone. -/
abbrev StoreM := EStateM Fault Store

namespace Store

def empty : Store := ⟨[], [], Location.dummy, 0⟩

def record {Record : Type} (records : List Record) (index : UInt32) : Except Fault Record :=
  match records[index.toNat]? with
  | some record => .ok record
  | none => .error .indexOutOfBounds

theorem record_eq_ok {Record : Type} {records : List Record} {index : UInt32}
    {found : Record} :
    record records index = .ok found ↔ records[index.toNat]? = some found := by
  unfold record
  split <;> simp_all

theorem record_eq_error {Record : Type} {records : List Record} {index : UInt32}
    {fault : Fault} (missing : record records index = .error fault) :
    records[index.toNat]? = none ∧ fault = .indexOutOfBounds := by
  unfold record at missing
  split at missing
  · cases missing
  · cases missing
    exact ⟨by assumption, rfl⟩

def expr (store : Store) (id : ExprId) : Except Fault ExprRecord :=
  record store.exprs id.index

def decl (store : Store) (id : DeclId) : Except Fault DeclRecord :=
  record store.decls id.index

def addExpr (content : ExprContent) : StoreM BuildReply := fun store =>
  .ok (.expr ⟨store.exprs.length.toUInt32⟩)
    { store with exprs := store.exprs ++ [⟨content, store.location⟩] }

def addDecl (text : String) (typeText : Option String) (content : DeclContent) :
    StoreM BuildReply := fun store =>
  .ok (.decl ⟨store.decls.length.toUInt32⟩)
    { store with
      decls := store.decls ++
        [{ text := text
           location := store.location
           depth := store.depth
           typeText := typeText
           type := .undefined
           escapes := false
           content := content }] }

def amendExpr (id : ExprId) (amendment : ExprRecord → Option ExprRecord) : StoreM BuildReply :=
  fun store =>
    match store.expr id with
    | .error fault => .error fault store
    | .ok record =>
        match amendment record with
        | none => .ok (.changed false) store
        | some amended =>
            .ok (.changed true) { store with exprs := store.exprs.set id.index.toNat amended }

def amendDecl (id : DeclId) (amendment : DeclRecord → Option DeclRecord) : StoreM BuildReply :=
  fun store =>
    match store.decl id with
    | .error fault => .error fault store
    | .ok record =>
        match amendment record with
        | none => .ok (.changed false) store
        | some amended =>
            .ok (.changed true) { store with decls := store.decls.set id.index.toNat amended }

def perform : BuildCall → StoreM BuildReply
  | .moveTo location => fun store => .ok .done { store with location := location }
  | .enterDepth depth => fun store => .ok .done { store with depth := depth }
  | .int value => addExpr (.int value)
  | .string contents => addExpr (.string contents)
  | .binary operator left right => addExpr (.binary operator left right)
  | .sequence elements => addExpr (.sequence elements)
  | .letIn decls body => addExpr (.letIn decls body)
  | .identifier text => fun store => addExpr (.identifier text none store.depth) store
  | .ifThenElse condition thenBranch elseBranch =>
      addExpr (.ifThenElse condition thenBranch elseBranch)
  | .call function arguments => addExpr (.call function arguments none)
  | .whileLoop condition body => addExpr (.whileLoop condition body)
  | .forLoop loopVariable high body => addExpr (.forLoop loopVariable high body)
  | .breakLoop => addExpr (.breakLoop none)
  | .assign target value => addExpr (.assign target value)
  | .declareVariable text typeText initializer =>
      addDecl text typeText (.value (some initializer))
  | .declareParameter text typeText => addDecl text typeText (.value none)
  | .declareFunction text parameters resultText body =>
      addDecl text resultText (.function parameters body none)
  | .resolve use target => amendExpr use (ExprRecord.withLink? target)
  | .resolveBreak leave loop => fun store =>
      match store.expr loop with
      | .error fault => .error fault store
      | .ok record =>
          if record.content.isLoop then amendExpr leave (ExprRecord.withLoop? loop) store
          else .ok (.changed false) store
  | .setEscapes id escapes => amendDecl id (fun record => some { record with escapes := escapes })
  | .setType id type => amendDecl id (fun record => some { record with type := type })
  | .setLoweredName id symbol => amendDecl id (DeclRecord.withLoweredText? symbol)

def after (store : Store) (call : BuildCall) : Store :=
  stateAfter (perform call) store

def afterAll (store : Store) (calls : List BuildCall) : Store :=
  calls.foldl after store

end Store

end TigerTree
