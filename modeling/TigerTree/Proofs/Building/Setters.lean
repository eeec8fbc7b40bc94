import Mathlib.Logic.Function.Conjugate
import TigerTree.Proofs.Building.Runs

/-! Setters on a plain store. A setter writes one field of one record, and whether it does can be
told from what no setter changes. So setters that write different fields can change places, and
one that is repeated after them finds its field written. -/

set_option autoImplicit false

namespace TigerTree

inductive Field where
  | link (use : ExprId)
  | target (leave : ExprId)
  | escapes (id : DeclId)
  | type (id : DeclId)
  | loweredName (id : DeclId)
  deriving DecidableEq

def BuildCall.field? : BuildCall → Option Field
  | .resolve use _ => some (.link use)
  | .resolveBreak leave _ => some (.target leave)
  | .setEscapes id _ => some (.escapes id)
  | .setType id _ => some (.type id)
  | .setLoweredName id _ => some (.loweredName id)
  | _ => none

def ExprContent.bare : ExprContent → ExprContent
  | .identifier text _ depth => .identifier text none depth
  | .call function arguments _ => .call function arguments none
  | .breakLoop _ => .breakLoop none
  | content => content

def ExprRecord.bare (record : ExprRecord) : ExprRecord :=
  { record with content := record.content.bare }

def DeclContent.bare : DeclContent → DeclContent
  | .function parameters body _ => .function parameters body none
  | .value initializer => .value initializer

def DeclRecord.bare (record : DeclRecord) : DeclRecord :=
  { record with type := .undefined, escapes := false, content := record.content.bare }

def DeclRecord.unlowered (record : DeclRecord) : DeclRecord :=
  { record with content := record.content.bare }

/-- The store without links, types, capture marks and lowered names. -/
def Store.bare (store : Store) : Store :=
  { store with
    exprs := store.exprs.map ExprRecord.bare
    decls := store.decls.map DeclRecord.bare }

section

variable {Record : Type} {bare : Record → Record} {amendment : Record → Option Record}

def amended (amendment : Record → Option Record) (record : Record) : Record :=
  (amendment record).getD record

/-- An amendment of one field. Whether it applies shows without the field, and applying it again
changes nothing. -/
structure Decorates (bare : Record → Record) (amendment : Record → Option Record) : Prop where
  isSome_bare : ∀ record, (amendment (bare record)).isSome = (amendment record).isSome
  bare_amended : ∀ record, bare (amended amendment record) = bare record
  amended_amended : ∀ record,
    amended amendment (amended amendment record) = amended amendment record

end

theorem decorates_withLink? (target : DeclId) :
    Decorates ExprRecord.bare (ExprRecord.withLink? target) := by
  constructor <;> rintro ⟨content, location⟩ <;> cases content <;> rfl

theorem decorates_withLoop? (loop : ExprId) :
    Decorates ExprRecord.bare (ExprRecord.withLoop? loop) := by
  constructor <;> rintro ⟨content, location⟩ <;> cases content <;> rfl

theorem decorates_withLoweredText? (symbol : String) :
    Decorates DeclRecord.bare (DeclRecord.withLoweredText? symbol) := by
  constructor <;> rintro ⟨text, location, depth, typeText, type, escapes, content⟩ <;>
    cases content <;> rfl

theorem decorates_unlowered (symbol : String) :
    Decorates DeclRecord.unlowered (DeclRecord.withLoweredText? symbol) := by
  constructor <;> rintro ⟨text, location, depth, typeText, type, escapes, content⟩ <;>
    cases content <;> rfl

theorem decorates_escapes (escapes : Bool) :
    Decorates DeclRecord.bare (fun record => some { record with escapes := escapes }) :=
  ⟨fun _ => rfl, fun _ => rfl, fun _ => rfl⟩

theorem decorates_type (type : SemanticType) :
    Decorates DeclRecord.bare (fun record => some { record with type := type }) :=
  ⟨fun _ => rfl, fun _ => rfl, fun _ => rfl⟩

section

variable {Record : Type} {bare : Record → Record} {amendment : Record → Option Record}
  {records : List Record} {index : UInt32}

/-- Whether the amendment applies to the record with the index. -/
def applies (records : List Record) (index : UInt32) (amendment : Record → Option Record) :
    Except Fault Bool :=
  (Store.record records index).map (fun record => (amendment record).isSome)

theorem record_map (bare : Record → Record) (records : List Record) (index : UInt32) :
    Store.record (records.map bare) index = (Store.record records index).map bare := by
  unfold Store.record
  rw [List.getElem?_map]
  cases records[index.toNat]? <;> rfl

theorem applies_map (decorates : Decorates bare amendment) (records : List Record)
    (index : UInt32) : applies (records.map bare) index amendment =
      applies records index amendment := by
  unfold applies
  rw [record_map]
  cases Store.record records index with
  | error fault => rfl
  | ok record => exact congrArg Except.ok (decorates.isSome_bare record)

/-- The index is past the end, or its record has no amendment, or it has one. -/
theorem applies_cases (records : List Record) (index : UInt32)
    (amendment : Record → Option Record) :
    (Store.record records index = .error .indexOutOfBounds ∧
      applies records index amendment = .error .indexOutOfBounds) ∨
    (∃ record, Store.record records index = .ok record ∧ amendment record = none ∧
      applies records index amendment = .ok false) ∨
    ∃ record new, Store.record records index = .ok record ∧ amendment record = some new ∧
      applies records index amendment = .ok true := by
  unfold applies
  cases found : Store.record records index with
  | error fault =>
      rw [(Store.record_eq_error found).2]
      exact .inl ⟨rfl, rfl⟩
  | ok record =>
      cases isAmended : amendment record with
      | none => exact .inr (.inl ⟨record, rfl, isAmended, by simp [Except.map, isAmended]⟩)
      | some new => exact .inr (.inr ⟨record, new, rfl, isAmended, by simp [Except.map, isAmended]⟩)

theorem modify_amended {record : Record} (found : Store.record records index = .ok record) :
    records.modify index.toNat (amended amendment) =
      records.set index.toNat (amended amendment record) := by
  rw [List.modify_eq_set_getElem?, Store.record_eq_ok.mp found]
  rfl

/-- An amendment that does not apply changes nothing. -/
theorem modify_of_declined (declined : applies records index amendment ≠ .ok true) :
    records.modify index.toNat (amended amendment) = records := by
  rcases applies_cases records index amendment with
    ⟨missing, _⟩ | ⟨record, found, kept, _⟩ | ⟨record, new, _, _, applied⟩
  · rw [List.modify_eq_set_getElem?, (Store.record_eq_error missing).1]
    rfl
  · obtain ⟨inside, rfl⟩ := List.getElem?_eq_some_iff.mp (Store.record_eq_ok.mp found)
    rw [modify_amended found, amended, kept, Option.getD_none]
    exact List.set_getElem_self inside
  · exact absurd applied declined

theorem map_modify (decorates : Decorates bare amendment) (records : List Record) (place : Nat) :
    (records.modify place (amended amendment)).map bare = records.map bare := by
  apply List.ext_getElem?
  intro other
  rw [List.getElem?_map, List.getElem?_map, List.getElem?_modify]
  cases records[other]? with
  | none => rfl
  | some record =>
      by_cases here : place = other
      · simp [here, decorates.bare_amended]
      · simp [here]

theorem modify_modify (decorates : Decorates bare amendment) (records : List Record)
    (place : Nat) :
    (records.modify place (amended amendment)).modify place (amended amendment) =
      records.modify place (amended amendment) := by
  have twice : amended amendment ∘ amended amendment = amended amendment :=
    funext decorates.amended_amended
  rw [List.modify_modify_eq, twice]

theorem modify_comm (records : List Record) {index other : UInt32} {first second : Record → Record}
    (apart : index ≠ other ∨ Function.Commute first second) :
    (records.modify index.toNat first).modify other.toNat second =
      (records.modify other.toNat second).modify index.toNat first := by
  by_cases same : index = other
  · have commute := apart.resolve_left (fun different => different same)
    rw [same, List.modify_modify_eq, List.modify_modify_eq, commute.comp_eq]
  · exact List.modify_modify_ne _ _ _ (fun equal => same (UInt32.toNat_inj.mp equal))

end

/-! ### Edits -/

inductive Edit where
  /-- Nothing is amended, for want of a loop to link to. -/
  | idle (outcome : Except Fault Unit)
  | expr (id : ExprId) (amendment : ExprRecord → Option ExprRecord)
  | decl (id : DeclId) (amendment : DeclRecord → Option DeclRecord)

namespace Edit

def perform : Edit → StoreM BuildReply
  | .idle (.error fault) => fun store => .error fault store
  | .idle (.ok _) => fun store => .ok (.changed false) store
  | .expr id amendment => Store.amendExpr id amendment
  | .decl id amendment => Store.amendDecl id amendment

def applies : Edit → Store → Except Fault Bool
  | .idle outcome, _ => outcome.map (fun _ => false)
  | .expr id amendment, store => TigerTree.applies store.exprs id.index amendment
  | .decl id amendment, store => TigerTree.applies store.decls id.index amendment

def apply : Edit → Store → Store
  | .idle _, store => store
  | .expr id amendment, store =>
      { store with exprs := store.exprs.modify id.index.toNat (amended amendment) }
  | .decl id amendment, store =>
      { store with decls := store.decls.modify id.index.toNat (amended amendment) }

def Decorates : Edit → Prop
  | .idle _ => True
  | .expr _ amendment => TigerTree.Decorates ExprRecord.bare amendment
  | .decl _ amendment => TigerTree.Decorates DeclRecord.bare amendment

def Independent : Edit → Edit → Prop
  | .expr id first, .expr other second =>
      id.index ≠ other.index ∨ Function.Commute (amended first) (amended second)
  | .decl id first, .decl other second =>
      id.index ≠ other.index ∨ Function.Commute (amended first) (amended second)
  | _, _ => True

variable {edit first second : Edit} {store : Store}

theorem perform_eq (edit : Edit) (store : Store) :
    edit.perform store =
      match edit.applies store with
      | .error fault => .error fault store
      | .ok applied => .ok (.changed applied) (edit.apply store) := by
  cases edit with
  | idle outcome => cases outcome <;> rfl
  | expr id amendment =>
      change Store.amendExpr id amendment store = _
      simp only [Store.amendExpr, Store.expr, applies, apply]
      rcases applies_cases store.exprs id.index amendment with
        ⟨missing, fails⟩ | ⟨record, found, kept, declined⟩ |
        ⟨record, new, found, isAmended, applied⟩
      · simp only [missing, fails]
      · simp only [found, kept, declined, modify_of_declined (by rw [declined]; simp)]
      · simp only [found, isAmended, applied, modify_amended found, amended, Option.getD_some]
  | decl id amendment =>
      change Store.amendDecl id amendment store = _
      simp only [Store.amendDecl, Store.decl, applies, apply]
      rcases applies_cases store.decls id.index amendment with
        ⟨missing, fails⟩ | ⟨record, found, kept, declined⟩ |
        ⟨record, new, found, isAmended, applied⟩
      · simp only [missing, fails]
      · simp only [found, kept, declined, modify_of_declined (by rw [declined]; simp)]
      · simp only [found, isAmended, applied, modify_amended found, amended, Option.getD_some]

theorem apply_of_declined (declined : edit.applies store ≠ .ok true) :
    edit.apply store = store := by
  cases edit with
  | idle outcome => rfl
  | expr id amendment => rw [apply, modify_of_declined declined]
  | decl id amendment => rw [apply, modify_of_declined declined]

theorem stateAfter_perform (edit : Edit) (store : Store) :
    stateAfter edit.perform store = edit.apply store := by
  rw [stateAfter, perform_eq]
  cases applied : edit.applies store with
  | error fault =>
      exact (apply_of_declined (by rw [applied]; simp)).symm
  | ok made => rfl

theorem resultOf_perform (edit : Edit) (store : Store) :
    resultOf edit.perform store = (edit.applies store).map .changed := by
  rw [resultOf, perform_eq]
  cases edit.applies store <;> rfl

theorem apply_comm (independent : first.Independent second) :
    second.apply (first.apply store) = first.apply (second.apply store) := by
  cases first with
  | idle outcome => rfl
  | expr id amendment =>
      cases second with
      | expr other next => simp only [apply, modify_comm store.exprs independent]
      | _ => rfl
  | decl id amendment =>
      cases second with
      | decl other next => simp only [apply, modify_comm store.decls independent]
      | _ => rfl

theorem apply_apply (decorates : edit.Decorates) :
    edit.apply (edit.apply store) = edit.apply store := by
  cases edit with
  | idle outcome => rfl
  | expr id amendment => simp only [apply, modify_modify decorates]
  | decl id amendment => simp only [apply, modify_modify decorates]

theorem bare_apply (decorates : edit.Decorates) : (edit.apply store).bare = store.bare := by
  cases edit with
  | idle outcome => rfl
  | expr id amendment => simp only [apply, Store.bare, map_modify decorates]
  | decl id amendment => simp only [apply, Store.bare, map_modify decorates]

theorem applies_bare (decorates : edit.Decorates) :
    edit.applies store.bare = edit.applies store := by
  cases edit with
  | idle outcome => rfl
  | expr id amendment => exact applies_map decorates store.exprs id.index
  | decl id amendment => exact applies_map decorates store.decls id.index

/-- The edit writes the field, if it writes any. -/
inductive At : Edit → Field → Prop
  | idle (outcome : Except Fault Unit) (field : Field) : At (.idle outcome) field
  | link (use : ExprId) (target : DeclId) : At (.expr use (ExprRecord.withLink? target)) (.link use)
  | target (leave loop : ExprId) : At (.expr leave (ExprRecord.withLoop? loop)) (.target leave)
  | escapes (id : DeclId) (escapes : Bool) :
      At (.decl id (fun record => some { record with escapes := escapes })) (.escapes id)
  | type (id : DeclId) (type : SemanticType) :
      At (.decl id (fun record => some { record with type := type })) (.type id)
  | loweredName (id : DeclId) (symbol : String) :
      At (.decl id (DeclRecord.withLoweredText? symbol)) (.loweredName id)

theorem At.decorates {field : Field} (isAt : edit.At field) : edit.Decorates := by
  cases isAt with
  | idle outcome => trivial
  | link use target => exact decorates_withLink? target
  | target leave loop => exact decorates_withLoop? loop
  | escapes id escapes => exact decorates_escapes escapes
  | type id type => exact decorates_type type
  | loweredName id symbol => exact decorates_withLoweredText? symbol

private theorem commute_link_loop (target : DeclId) (loop : ExprId) :
    Function.Commute (amended (ExprRecord.withLink? target))
      (amended (ExprRecord.withLoop? loop)) := by
  rintro ⟨content, location⟩
  cases content <;> rfl

private theorem commute_escapes_loweredText (escapes : Bool) (symbol : String) :
    Function.Commute (amended (fun record => some { record with escapes := escapes }))
      (amended (DeclRecord.withLoweredText? symbol)) := by
  rintro ⟨text, location, depth, typeText, type, before, content⟩
  cases content <;> rfl

private theorem commute_type_loweredText (type : SemanticType) (symbol : String) :
    Function.Commute (amended (fun record => some { record with type := type }))
      (amended (DeclRecord.withLoweredText? symbol)) := by
  rintro ⟨text, location, depth, typeText, before, escapes, content⟩
  cases content <;> rfl

private theorem commute_escapes_type (escapes : Bool) (type : SemanticType) :
    Function.Commute (amended (fun record : DeclRecord => some { record with escapes := escapes }))
      (amended (fun record => some { record with type := type })) :=
  fun _ => rfl

/-- Two fields are fields of different records, or hold apart in one. -/
theorem At.independent {one other : Field} (firstAt : first.At one) (secondAt : second.At other)
    (different : one ≠ other) : first.Independent second := by
  have exprs_apart {id next : ExprId} (field : ExprId → Field) (apart : field id ≠ field next) :
      id.index ≠ next.index := fun same => apart (congrArg (fun index => field ⟨index⟩) same)
  have decls_apart {id next : DeclId} (field : DeclId → Field) (apart : field id ≠ field next) :
      id.index ≠ next.index := fun same => apart (congrArg (fun index => field ⟨index⟩) same)
  cases firstAt with
  | idle outcome => cases second <;> trivial
  | link use target =>
      cases secondAt with
      | link next _ => exact .inl (exprs_apart .link different)
      | target leave loop => exact .inr (commute_link_loop target loop)
      | _ => trivial
  | target leave loop =>
      cases secondAt with
      | link use target => exact .inr (commute_link_loop target loop).symm
      | target next _ => exact .inl (exprs_apart .target different)
      | _ => trivial
  | escapes id escapes =>
      cases secondAt with
      | escapes next _ => exact .inl (decls_apart .escapes different)
      | type next type => exact .inr (commute_escapes_type escapes type)
      | loweredName next symbol => exact .inr (commute_escapes_loweredText escapes symbol)
      | _ => trivial
  | type id type =>
      cases secondAt with
      | escapes next escapes => exact .inr (commute_escapes_type escapes type).symm
      | type next _ => exact .inl (decls_apart .type different)
      | loweredName next symbol => exact .inr (commute_type_loweredText type symbol)
      | _ => trivial
  | loweredName id symbol =>
      cases secondAt with
      | escapes next escapes => exact .inr (commute_escapes_loweredText escapes symbol).symm
      | type next type => exact .inr (commute_type_loweredText type symbol).symm
      | loweredName next _ => exact .inl (decls_apart .loweredName different)
      | _ => trivial

end Edit

namespace Store

def editBreak (leave loop : ExprId) : Except Fault ExprRecord → Edit
  | .error fault => .idle (.error fault)
  | .ok record =>
      if record.content.isLoop then .expr leave (ExprRecord.withLoop? loop) else .idle (.ok ())

/-- The edit that a setter comes to. -/
def edit (store : Store) : BuildCall → Edit
  | .resolve use target => .expr use (ExprRecord.withLink? target)
  | .resolveBreak leave loop => editBreak leave loop (store.expr loop)
  | .setEscapes id escapes => .decl id (fun record => some { record with escapes := escapes })
  | .setType id type => .decl id (fun record => some { record with type := type })
  | .setLoweredName id symbol => .decl id (DeclRecord.withLoweredText? symbol)
  | _ => .idle (.ok ())

variable {store : Store} {call first second : BuildCall}

theorem edit_resolveBreak (leave loop : ExprId) :
    store.edit (.resolveBreak leave loop) = editBreak leave loop (store.expr loop) := rfl

theorem perform_setter (setter : call.isSetter) :
    perform call store = (store.edit call).perform store := by
  cases call with
  | resolve use target => rfl
  | resolveBreak leave loop =>
      unfold perform edit
      cases found : store.expr loop with
      | error fault => simp only [found, editBreak, Edit.perform]
      | ok record =>
          by_cases loops : record.content.isLoop <;> simp [found, loops, editBreak, Edit.perform]
  | setEscapes id escapes => rfl
  | setType id type => rfl
  | setLoweredName id symbol => rfl
  | _ => cases setter

theorem at_editBreak (leave loop : ExprId) (found : Except Fault ExprRecord) :
    (editBreak leave loop found).At (.target leave) := by
  cases found with
  | error fault => exact .idle _ _
  | ok record =>
      by_cases loops : record.content.isLoop
      · rw [editBreak, if_pos loops]
        exact .target leave loop
      · rw [editBreak, if_neg loops]
        exact .idle (.ok ()) (.target leave)

theorem at_edit {field : Field} (store : Store) (isField : call.field? = some field) :
    (store.edit call).At field := by
  cases call with
  | resolve use target =>
      cases isField
      exact .link use target
  | resolveBreak leave loop =>
      cases isField
      exact at_editBreak leave loop (store.expr loop)
  | setEscapes id escapes =>
      cases isField
      exact .escapes id escapes
  | setType id type =>
      cases isField
      exact .type id type
  | setLoweredName id symbol =>
      cases isField
      exact .loweredName id symbol
  | _ => cases isField

/-- An edit depends on which expressions are loops, and on nothing else in the store. -/
theorem edit_bare (store : Store) (call : BuildCall) : store.bare.edit call = store.edit call := by
  cases call with
  | resolveBreak leave loop =>
      have sameLoop (record : ExprRecord) : record.bare.content.isLoop = record.content.isLoop := by
        obtain ⟨content, location⟩ := record
        cases content <;> rfl
      change editBreak leave loop (Store.record (store.exprs.map ExprRecord.bare) loop.index) =
        editBreak leave loop (Store.record store.exprs loop.index)
      rw [record_map]
      cases Store.record store.exprs loop.index with
      | error fault => rfl
      | ok record => simp only [Except.map, editBreak, sameLoop]
  | _ => rfl

end Store

/-- An edit applies, or does not, or an index is out of bounds. -/
theorem Store.applies_edit (store : Store) (call : BuildCall) :
    (store.edit call).applies store = .ok true ∨ (store.edit call).applies store = .ok false ∨
      (store.edit call).applies store = .error .indexOutOfBounds := by
  have of_table {Record : Type} (records : List Record) (index : UInt32)
      (amendment : Record → Option Record) :
      applies records index amendment = .ok true ∨ applies records index amendment = .ok false ∨
        applies records index amendment = .error .indexOutOfBounds := by
    rcases applies_cases records index amendment with
      ⟨_, fails⟩ | ⟨_, _, _, declined⟩ | ⟨_, _, _, _, applied⟩
    · exact .inr (.inr fails)
    · exact .inr (.inl declined)
    · exact .inl applied
  cases call with
  | resolve use target => exact of_table store.exprs use.index _
  | resolveBreak leave loop =>
      rw [edit_resolveBreak]
      cases found : store.expr loop with
      | error fault =>
          rw [(record_eq_error found).2]
          exact .inr (.inr rfl)
      | ok record =>
          by_cases loops : record.content.isLoop
          · rw [editBreak, if_pos loops]
            exact of_table store.exprs leave.index _
          · rw [editBreak, if_neg loops]
            exact .inr (.inl rfl)
  | setEscapes id escapes => exact of_table store.decls id.index _
  | setType id type => exact of_table store.decls id.index _
  | setLoweredName id symbol => exact of_table store.decls id.index _
  | _ => exact .inr (.inl rfl)

theorem BuildCall.field?_of_isSetter {call : BuildCall} (setter : call.isSetter) :
    ∃ field, call.field? = some field := by
  cases call with
  | resolve use target => exact ⟨_, rfl⟩
  | resolveBreak leave loop => exact ⟨_, rfl⟩
  | setEscapes id escapes => exact ⟨_, rfl⟩
  | setType id type => exact ⟨_, rfl⟩
  | setLoweredName id symbol => exact ⟨_, rfl⟩
  | _ => cases setter

/-! ### One setter after another -/

namespace Store

variable {store left right : Store} {call first second : BuildCall}

theorem after_setter (setter : call.isSetter) : store.after call = (store.edit call).apply store := by
  rw [after, stateAfter, perform_setter setter]
  exact Edit.stateAfter_perform (store.edit call) store

theorem answer_setter (setter : call.isSetter) :
    resultOf (perform call) store = ((store.edit call).applies store).map .changed := by
  rw [resultOf, perform_setter setter]
  exact Edit.resultOf_perform (store.edit call) store

theorem answer_cases (store : Store) (setter : call.isSetter) :
    resultOf (perform call) store = .ok (.changed true) ∨
      resultOf (perform call) store = .ok (.changed false) ∨
      resultOf (perform call) store = .error .indexOutOfBounds := by
  rw [answer_setter setter]
  rcases store.applies_edit call with applied | declined | fails
  · exact .inl (by rw [applied, Except.map])
  · exact .inr (.inl (by rw [declined, Except.map]))
  · exact .inr (.inr (by rw [fails, Except.map]))

theorem decorates_edit (setter : call.isSetter) : (store.edit call).Decorates := by
  obtain ⟨field, isField⟩ := BuildCall.field?_of_isSetter setter
  exact (at_edit store isField).decorates

theorem bare_after (setter : call.isSetter) : (store.after call).bare = store.bare := by
  rw [after_setter setter]
  exact Edit.bare_apply (decorates_edit setter)

theorem edit_of_bare (same : left.bare = right.bare) (call : BuildCall) :
    left.edit call = right.edit call := by
  rw [← edit_bare left, same, edit_bare right]

/-- What a setter answers can be told without decorations. -/
theorem answer_of_bare (setter : call.isSetter) (same : left.bare = right.bare) :
    resultOf (perform call) left = resultOf (perform call) right := by
  have decorates : (right.edit call).Decorates := decorates_edit setter
  rw [answer_setter setter, answer_setter setter, edit_of_bare same,
    ← Edit.applies_bare decorates, same, Edit.applies_bare decorates]

/-- A setter that is repeated changes nothing. -/
theorem after_after (setter : call.isSetter) :
    (store.after call).after call = store.after call := by
  rw [after_setter setter, edit_of_bare (bare_after setter), after_setter setter]
  exact Edit.apply_apply (decorates_edit setter)

def Writes (store : Store) (call : BuildCall) : Prop :=
  resultOf (perform call) store = .ok (.changed true)

theorem writes_of_bare (setter : call.isSetter) (same : left.bare = right.bare) :
    left.Writes call ↔ right.Writes call := by
  rw [Writes, Writes, answer_of_bare setter same]

theorem after_of_declined (setter : call.isSetter) (declined : ¬ store.Writes call) :
    store.after call = store := by
  rw [after_setter setter]
  apply Edit.apply_of_declined
  intro applied
  rw [Writes, answer_setter setter, applied] at declined
  exact declined rfl

def Clash (store : Store) (first second : BuildCall) : Prop :=
  first.field? = second.field? ∧ store.Writes first ∧ store.Writes second

theorem clash_of_bare (firstSets : first.isSetter) (secondSets : second.isSetter)
    (same : left.bare = right.bare) : left.Clash first second ↔ right.Clash first second := by
  rw [Clash, Clash, writes_of_bare firstSets same, writes_of_bare secondSets same]

/-- Two setters that do not clash can change places. -/
theorem after_comm (firstSets : first.isSetter) (secondSets : second.isSetter)
    (apart : ¬ store.Clash first second) :
    (store.after first).after second = (store.after second).after first := by
  by_cases firstWrites : store.Writes first
  · by_cases secondWrites : store.Writes second
    · obtain ⟨one, isOne⟩ := BuildCall.field?_of_isSetter firstSets
      obtain ⟨other, isOther⟩ := BuildCall.field?_of_isSetter secondSets
      have different : one ≠ other := by
        rintro rfl
        exact apart ⟨isOne.trans isOther.symm, firstWrites, secondWrites⟩
      rw [after_setter secondSets, edit_of_bare (bare_after firstSets), after_setter firstSets,
        after_setter firstSets, edit_of_bare (bare_after secondSets), after_setter secondSets]
      exact Edit.apply_comm ((at_edit store isOne).independent (at_edit store isOther) different)
    · have secondDeclines : ¬ (store.after first).Writes second := by
        rw [writes_of_bare secondSets (bare_after firstSets)]
        exact secondWrites
      rw [after_of_declined secondSets secondWrites, after_of_declined secondSets secondDeclines]
  · have firstDeclines : ¬ (store.after second).Writes first := by
      rw [writes_of_bare firstSets (bare_after secondSets)]
      exact firstWrites
    rw [after_of_declined firstSets firstWrites, after_of_declined firstSets firstDeclines]

variable {calls other : List BuildCall}

theorem bare_afterAll (setters : ∀ call ∈ calls, call.isSetter) :
    (store.afterAll calls).bare = store.bare := by
  induction calls generalizing store with
  | nil => rfl
  | cons call rest ih =>
      have restSets := fun next isNext => setters next (List.mem_cons_of_mem call isNext)
      exact (ih restSets).trans (bare_after (setters call List.mem_cons_self))

def Independent (store : Store) (calls : List BuildCall) : Prop :=
  calls.Pairwise (fun first second => ¬ store.Clash first second)

theorem Independent.perm (independent : store.Independent calls) (reordered : other.Perm calls) :
    store.Independent other := by
  refine (reordered.pairwise_iff ?_).mpr independent
  rintro first second apart ⟨same, secondWrites, firstWrites⟩
  exact apart ⟨same.symm, firstWrites, secondWrites⟩

theorem Independent.of_bare (independent : left.Independent calls)
    (setters : ∀ call ∈ calls, call.isSetter) (same : left.bare = right.bare) :
    right.Independent calls := by
  refine List.Pairwise.imp_of_mem ?_ independent
  intro first second isFirst isSecond apart clash
  exact apart ((clash_of_bare (setters first isFirst) (setters second isSecond) same).mpr clash)

/-- Independent setters lead to the same store in every order. -/
theorem afterAll_perm (reordered : other.Perm calls) (setters : ∀ call ∈ calls, call.isSetter)
    (independent : store.Independent calls) : store.afterAll other = store.afterAll calls := by
  induction reordered generalizing store with
  | nil => rfl
  | cons call _ ih =>
      have restSets := fun next isNext => setters next (List.mem_cons_of_mem _ isNext)
      obtain ⟨_, restApart⟩ := List.pairwise_cons.mp independent
      exact ih restSets (Independent.of_bare restApart restSets
        (bare_after (setters call List.mem_cons_self)).symm)
  | swap first second rest =>
      obtain ⟨apart, _⟩ := List.pairwise_cons.mp independent
      have firstSets := setters first List.mem_cons_self
      have secondSets := setters second (.tail _ List.mem_cons_self)
      change ((store.after second).after first).afterAll rest =
        ((store.after first).after second).afterAll rest
      rw [after_comm firstSets secondSets (apart second List.mem_cons_self)]
  | trans firstPerm secondPerm firstIh secondIh =>
      have betweenSets := fun call member => setters call (secondPerm.mem_iff.mp member)
      rw [firstIh betweenSets (independent.perm secondPerm), secondIh setters independent]

theorem afterAll_append (store : Store) (first second : List BuildCall) :
    store.afterAll (first ++ second) = (store.afterAll first).afterAll second :=
  List.foldl_append

/-- Lowered names show in the records of their functions and nowhere else. -/
theorem afterAll_loweredNames
    (lower : ∀ call ∈ calls, ∃ id symbol, call = .setLoweredName id symbol) :
    (store.afterAll calls).exprs = store.exprs ∧
      (store.afterAll calls).decls.map DeclRecord.unlowered =
        store.decls.map DeclRecord.unlowered ∧
      ∀ id, (∀ symbol, .setLoweredName id symbol ∉ calls) →
        (store.afterAll calls).decl id = store.decl id := by
  induction calls generalizing store with
  | nil => exact ⟨rfl, rfl, fun _ _ => rfl⟩
  | cons call rest ih =>
      obtain ⟨function, symbol, rfl⟩ := lower call List.mem_cons_self
      have later := @ih (store.after (.setLoweredName function symbol))
        (fun next isNext => lower next (List.mem_cons_of_mem _ isNext))
      have step : (store.after (.setLoweredName function symbol)).decls =
          store.decls.modify function.index.toNat
            (amended (DeclRecord.withLoweredText? symbol)) := by
        rw [after_setter rfl]
        rfl
      have stepExprs : (store.after (.setLoweredName function symbol)).exprs = store.exprs := by
        rw [after_setter rfl]
        rfl
      refine ⟨later.1.trans stepExprs, later.2.1.trans ?_, ?_⟩
      · rw [step, map_modify (decorates_unlowered symbol)]
      · intro id apart
        have elsewhere : function.index.toNat ≠ id.index.toNat := by
          intro same
          apply apart symbol
          rw [show id = function from (congrArg DeclId.mk (UInt32.toNat_inj.mp same)).symm]
          exact List.mem_cons_self
        refine (later.2.2 id (fun other member => apart other (.tail _ member))).trans ?_
        simp only [decl, record, step, List.getElem?_modify, if_neg elsewhere]
        cases store.decls[id.index.toNat]? <;> rfl

/-- A setter that was among them finds its field written, however many came after it. -/
theorem after_of_mem (setters : ∀ call ∈ calls, call.isSetter)
    (independent : store.Independent calls) (member : call ∈ calls) :
    (store.afterAll calls).after call = store.afterAll calls := by
  obtain ⟨before, later, rfl⟩ := List.append_of_mem member
  have last : ((before ++ later) ++ [call]).Perm (before ++ call :: later) :=
    List.perm_append_singleton call _ |>.trans List.perm_middle.symm
  rw [← afterAll_perm last setters independent, afterAll, List.foldl_append]
  exact after_after (setters call member)

end Store
end TigerTree
