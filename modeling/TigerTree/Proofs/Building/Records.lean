import TigerTree.Proofs.Building.Store

/-! Reading the nodes of an arena as records of a store. What is read of a node depends on the
lists and texts it names and on nothing else, and an amendment acts on a node as on its record. -/

set_option autoImplicit false

namespace TigerTree

namespace Arena

def content (arena : Arena) : Shape → Except Fault ExprContent
  | .int value => .ok (.int value)
  | .string contents => (arena.text contents).map .string
  | .binary operator left right => .ok (.binary operator left right)
  | .sequence elements => .ok (.sequence elements)
  | .letIn decls body => .ok (.letIn decls body)
  | .identifier name link depth =>
      (arena.text name).map (fun text => .identifier text link depth)
  | .ifThenElse condition thenBranch elseBranch =>
      .ok (.ifThenElse condition thenBranch elseBranch)
  | .call function arguments link =>
      (arena.text function).map (fun text => .call text arguments link)
  | .whileLoop condition body => .ok (.whileLoop condition body)
  | .forLoop loopVariable high body => .ok (.forLoop loopVariable high body)
  | .breakLoop target => .ok (.breakLoop target)
  | .assign target value => .ok (.assign target value)

def exprRecord (arena : Arena) (expr : Expr) : Except Fault ExprRecord := do
  let shape ← arena.shape expr.form
  let content ← arena.content shape
  .ok ⟨content, expr.location⟩

def text? (arena : Arena) : Option Name → Except Fault (Option String)
  | none => .ok none
  | some name => (arena.text name).map some

def declContent (arena : Arena) : DeclForm → Except Fault DeclContent
  | .value initializer => .ok (.value initializer)
  | .function parameters body loweredName => do
      let parameters ← arena.declList parameters
      let loweredText ← arena.text? loweredName
      .ok (.function parameters body loweredText)

def declRecord (arena : Arena) (decl : Decl) : Except Fault DeclRecord := do
  let text ← arena.text decl.name
  let typeText ← arena.text? decl.typeName
  let content ← arena.declContent decl.form
  .ok
    { text := text
      location := decl.location
      depth := decl.depth
      typeText := typeText
      type := decl.type
      escapes := decl.escapes
      content := content }

def readExpr (arena : Arena) (id : ExprId) : Except Fault ExprRecord := do
  let expr ← arena.expr id
  arena.exprRecord expr

def readDecl (arena : Arena) (id : DeclId) : Except Fault DeclRecord := do
  let decl ← arena.decl id
  arena.declRecord decl

structure Retains (old new : Arena) : Prop where
  exprList : ∀ range ids, old.exprList range = .ok ids → new.exprList range = .ok ids
  declList : ∀ range ids, old.declList range = .ok ids → new.declList range = .ok ids
  text : ∀ name text, old.text name = .ok text → new.text name = .ok text

namespace Retains

variable {old new : Arena}

theorem refl (arena : Arena) : arena.Retains arena :=
  ⟨fun _ _ => id, fun _ _ => id, fun _ _ => id⟩

theorem trans {first second third : Arena} (earlier : first.Retains second)
    (later : second.Retains third) : first.Retains third where
  exprList range ids found := later.exprList range ids (earlier.exprList range ids found)
  declList range ids found := later.declList range ids (earlier.declList range ids found)
  text name text found := later.text name text (earlier.text name text found)

theorem of_grows (grows : old.Grows new) : old.Retains new :=
  ⟨grows.exprList, grows.declList, grows.text⟩

end Retains

theorem map_eq_ok {First Second : Type} {first : Except Fault First} {give : First → Second}
    {result : Second} (run : first.map give = .ok result) :
    ∃ between, first = .ok between ∧ give between = result := by
  cases first with
  | error fault => cases run
  | ok between => exact ⟨between, rfl, Except.ok.inj run⟩

variable {arena old new : Arena}

theorem exprRecord_eq_ok {expr : Expr} {record : ExprRecord} :
    arena.exprRecord expr = .ok record ↔
      ∃ shape, arena.shape expr.form = .ok shape ∧ arena.content shape = .ok record.content ∧
        record.location = expr.location := by
  constructor
  · intro read
    obtain ⟨shape, resolved, read⟩ := bind_eq_ok read
    obtain ⟨content, spelled, same⟩ := bind_eq_ok read
    cases same
    exact ⟨shape, resolved, spelled, rfl⟩
  · rintro ⟨shape, resolved, spelled, sameLocation⟩
    simp only [exprRecord, resolved, spelled, ← sameLocation, bind, Except.bind]

theorem declRecord_eq_ok {decl : Decl} {record : DeclRecord} :
    arena.declRecord decl = .ok record ↔
      arena.text decl.name = .ok record.text ∧ arena.text? decl.typeName = .ok record.typeText ∧
        arena.declContent decl.form = .ok record.content ∧ record.location = decl.location ∧
        record.depth = decl.depth ∧ record.type = decl.type ∧ record.escapes = decl.escapes := by
  constructor
  · intro read
    obtain ⟨text, isText, read⟩ := bind_eq_ok read
    obtain ⟨typeText, isTypeText, read⟩ := bind_eq_ok read
    obtain ⟨content, spelled, same⟩ := bind_eq_ok read
    cases same
    exact ⟨isText, isTypeText, spelled, rfl, rfl, rfl, rfl⟩
  · rintro ⟨isText, isTypeText, spelled, sameLocation, sameDepth, sameType, sameEscapes⟩
    simp only [declRecord, isText, isTypeText, spelled, ← sameLocation, ← sameDepth, ← sameType,
      ← sameEscapes, bind, Except.bind]

namespace Retains

variable (retains : old.Retains new)
include retains

private theorem map_text {Result : Type} {name : Name} {give : String → Result} {result : Result}
    (found : (old.text name).map give = .ok result) :
    (new.text name).map give = .ok result := by
  obtain ⟨text, isText, rfl⟩ := map_eq_ok found
  rw [retains.text name text isText]
  rfl

private theorem content {shape : Shape} {content : ExprContent}
    (spelled : old.content shape = .ok content) : new.content shape = .ok content := by
  cases shape with
  | string contents => exact retains.map_text spelled
  | identifier name link depth => exact retains.map_text spelled
  | call function arguments link => exact retains.map_text spelled
  | _ => exact spelled

private theorem text? {name : Option Name} {text : Option String}
    (read : old.text? name = .ok text) : new.text? name = .ok text := by
  cases name with
  | none => exact read
  | some name => exact retains.map_text read

theorem declContent {form : DeclForm} {content : DeclContent}
    (spelled : old.declContent form = .ok content) : new.declContent form = .ok content := by
  cases form with
  | value initializer => exact spelled
  | function parameters body loweredName =>
      obtain ⟨ids, listed, spelled⟩ := bind_eq_ok spelled
      obtain ⟨loweredText, isLowered, same⟩ := bind_eq_ok spelled
      simp only [Arena.declContent, retains.declList parameters ids listed,
        retains.text? isLowered, bind, Except.bind]
      exact same

theorem exprRecord {expr : Expr} {record : ExprRecord}
    (read : old.exprRecord expr = .ok record) : new.exprRecord expr = .ok record := by
  obtain ⟨shape, resolved, spelled, sameLocation⟩ := exprRecord_eq_ok.mp read
  exact exprRecord_eq_ok.mpr
    ⟨shape, shape_of_lists retains.exprList retains.declList resolved,
      retains.content spelled, sameLocation⟩

theorem declRecord {decl : Decl} {record : DeclRecord}
    (read : old.declRecord decl = .ok record) : new.declRecord decl = .ok record := by
  obtain ⟨isText, isTypeText, spelled, others⟩ := declRecord_eq_ok.mp read
  exact declRecord_eq_ok.mpr ⟨retains.text _ _ isText, retains.text? isTypeText,
    retains.declContent spelled, others⟩

end Retains
end Arena

section

variable {Entry Record : Type} {read : Entry → Except Fault Record} {table : Array Entry}
  {records : List Record}

def ReadsAs (read : Entry → Except Fault Record) (table : Array Entry) (records : List Record) :
    Prop :=
  table.toList.map read = records.map .ok

namespace ReadsAs

theorem size_eq (reads : ReadsAs read table records) : table.size = records.length := by
  have lengths := congrArg List.length reads
  rw [List.length_map, List.length_map, Array.length_toList] at lengths
  exact lengths

theorem entry (reads : ReadsAs read table records) (index : Nat) :
    table[index]?.map read = records[index]?.map .ok := by
  have here := congrArg (fun outcomes => outcomes[index]?) reads
  simp only [List.getElem?_map, Array.getElem?_toList] at here
  exact here

/-- An index is past the end of both, or leads to an entry and to the record it reads as. -/
theorem lookup (reads : ReadsAs read table records) (index : UInt32) :
    (table[index.toNat]? = none ∧ Store.record records index = .error .indexOutOfBounds) ∨
      ∃ entry record, table[index.toNat]? = some entry ∧ read entry = .ok record ∧
        Store.record records index = .ok record := by
  have here := reads.entry index.toNat
  unfold Store.record
  cases found : table[index.toNat]? with
  | none =>
      rw [found] at here
      rw [Option.map_eq_none_iff.mp here.symm]
      exact .inl ⟨rfl, rfl⟩
  | some entry =>
      rw [found] at here
      obtain ⟨record, isRecord, same⟩ := Option.map_eq_some_iff.mp here.symm
      rw [isRecord]
      exact .inr ⟨entry, record, rfl, same.symm, rfl⟩

theorem push (reads : ReadsAs read table records) {added : Entry} {record : Record}
    (isRecord : read added = .ok record) :
    ReadsAs read (table.push added) (records ++ [record]) := by
  rw [ReadsAs, Array.toList_push, List.map_append, List.map_append, reads, List.map_singleton,
    List.map_singleton, isRecord]

theorem set (reads : ReadsAs read table records) {amended : Entry} {record : Record}
    (isRecord : read amended = .ok record) (index : Nat) :
    ReadsAs read (table.setIfInBounds index amended) (records.set index record) := by
  rw [ReadsAs, Array.toList_setIfInBounds, List.map_set, List.map_set, reads, isRecord]

theorem mono {other : Entry → Except Fault Record} (reads : ReadsAs read table records)
    (keeps : ∀ entry record, read entry = .ok record → other entry = .ok record) :
    ReadsAs other table records := by
  rw [ReadsAs, ← reads]
  apply List.map_congr_left
  intro entry inside
  have isRead : read entry ∈ records.map .ok := by
    rw [← reads]
    exact List.mem_map_of_mem inside
  obtain ⟨record, _, isRecord⟩ := List.mem_map.mp isRead
  rw [← isRecord]
  exact keeps entry record isRecord.symm

end ReadsAs
end

section

variable {arena : Arena}

/-- An amendment acts on an expression as on its record. -/
theorem amendments_of_exprRecord {expr : Expr} {record : ExprRecord}
    (read : arena.exprRecord expr = .ok record) :
    record.content.isLoop = expr.form.isLoop ∧
      (∀ target, (expr.withLink? target).map arena.exprRecord =
        (record.withLink? target).map .ok) ∧
      ∀ target, (expr.withLoop? target).map arena.exprRecord =
        (record.withLoop? target).map .ok := by
  obtain ⟨form, location⟩ := expr
  obtain ⟨content, recordLocation⟩ := record
  obtain ⟨shape, resolved, spelled, rfl⟩ := Arena.exprRecord_eq_ok.mp read
  cases form with
  | string contents =>
      cases resolved
      obtain ⟨text, _, rfl⟩ := Arena.map_eq_ok spelled
      exact ⟨rfl, fun _ => rfl, fun _ => rfl⟩
  | sequence elements =>
      obtain ⟨ids, _, same⟩ := bind_eq_ok resolved
      cases same
      cases spelled
      exact ⟨rfl, fun _ => rfl, fun _ => rfl⟩
  | letIn decls body =>
      obtain ⟨declIds, _, resolved⟩ := bind_eq_ok resolved
      obtain ⟨bodyIds, _, same⟩ := bind_eq_ok resolved
      cases same
      cases spelled
      exact ⟨rfl, fun _ => rfl, fun _ => rfl⟩
  | identifier name link depth =>
      cases resolved
      obtain ⟨text, isText, rfl⟩ := Arena.map_eq_ok spelled
      refine ⟨rfl, ?_, fun _ => rfl⟩
      intro target
      simp only [Expr.withLink?, ExprRecord.withLink?, Option.map_some, Arena.exprRecord,
        Arena.shape, Arena.content, isText, bind, Except.bind, Except.map]
  | call function arguments link =>
      obtain ⟨ids, listed, same⟩ := bind_eq_ok resolved
      cases same
      obtain ⟨text, isText, rfl⟩ := Arena.map_eq_ok spelled
      refine ⟨rfl, ?_, fun _ => rfl⟩
      intro target
      simp only [Expr.withLink?, ExprRecord.withLink?, Option.map_some, Arena.exprRecord,
        Arena.shape, Arena.content, listed, isText, bind, Except.bind, Except.map]
  | _ =>
      cases resolved
      cases spelled
      exact ⟨rfl, fun _ => rfl, fun _ => rfl⟩

theorem declRecord_withEscapes (escapes : Bool) {decl : Decl} {record : DeclRecord}
    (read : arena.declRecord decl = .ok record) :
    arena.declRecord { decl with escapes := escapes } =
      .ok { record with escapes := escapes } := by
  rw [Arena.declRecord_eq_ok] at read ⊢
  obtain ⟨isText, isTypeText, spelled, sameLocation, sameDepth, sameType, _⟩ := read
  exact ⟨isText, isTypeText, spelled, sameLocation, sameDepth, sameType, rfl⟩

theorem declRecord_withType (type : SemanticType) {decl : Decl} {record : DeclRecord}
    (read : arena.declRecord decl = .ok record) :
    arena.declRecord { decl with type := type } = .ok { record with type := type } := by
  rw [Arena.declRecord_eq_ok] at read ⊢
  obtain ⟨isText, isTypeText, spelled, sameLocation, sameDepth, _, sameEscapes⟩ := read
  exact ⟨isText, isTypeText, spelled, sameLocation, sameDepth, rfl, sameEscapes⟩

theorem withLoweredName?_commutes {name : Name} {symbol : String}
    (isSymbol : arena.text name = .ok symbol) {decl : Decl} {record : DeclRecord}
    (read : arena.declRecord decl = .ok record) :
    (decl.withLoweredName? name).map arena.declRecord =
      (record.withLoweredText? symbol).map .ok := by
  obtain ⟨isText, isTypeText, spelled, others⟩ := Arena.declRecord_eq_ok.mp read
  cases isForm : decl.form with
  | value initializer =>
      rw [isForm] at spelled
      have sameContent := Except.ok.inj spelled
      simp only [Decl.withLoweredName?, isForm, DeclRecord.withLoweredText?, ← sameContent,
        Option.map_none]
  | function parameters body loweredName =>
      rw [isForm] at spelled
      obtain ⟨ids, listed, spelled⟩ := bind_eq_ok spelled
      obtain ⟨loweredText, _, same⟩ := bind_eq_ok spelled
      have sameContent := Except.ok.inj same
      simp only [Decl.withLoweredName?, isForm, DeclRecord.withLoweredText?, ← sameContent,
        Option.map_some]
      apply congrArg some
      refine Arena.declRecord_eq_ok.mpr ⟨isText, isTypeText, ?_, others⟩
      simp only [Arena.declContent, Arena.text?, listed, isSymbol, bind, Except.bind, Except.map]

end

end TigerTree
