import TigerTree.Interchange.Reading

/-! The shape of exchanged values, told as data. Against a schema a value may have fields too many
and lack others; completing it drops the former and writes null for the latter. A part is
exchanged by a schema if what is written of it reads back as the part, and if what was read of any
value is written as the completed value. -/

set_option autoImplicit false

namespace TigerTree

inductive Schema where
  | plain
  /-- A variant that holds nothing. -/
  | bare
  | list (items : Schema)
  /-- An object whose labels are data. -/
  | entries (items : Schema)
  | record (fields : List (String × Schema))
  | variant (cases : List (String × Schema))

def Value.part (label : String) (value : Value) : Value :=
  (value.object?.bind (List.lookup label)).getD .null

def Value.nullable? {Part : Type} (read? : Value → Option Part) : Value → Option (Option Part)
  | .null => some none
  | value => (read? value).map some

theorem Value.optionalField?_eq {Part : Type} {read? : Value → Option Part} (label : String)
    (value : Value) :
    value.optionalField? label read? =
      value.object?.bind (fun _ => nullable? read? (value.part label)) := by
  cases value with
  | object fields =>
      simp only [optionalField?, part, object?, Option.bind_eq_bind, Option.bind_some]
      cases fields.lookup label with
      | none => rfl
      | some part => cases part <;> rfl
  | _ => rfl

namespace Schema

mutual

/-- The value with just the fields of the schema, in their order, where a missing field is null. A
variant that holds nothing is written as its tag. -/
def complete : Schema → Value → Value
  | .plain, value => value
  | .bare, value =>
      match value.bareVariant? with
      | some tag => .string tag
      | none => value
  | .list schema, .list items => .list (items.map (complete schema))
  | .entries schema, .object given =>
      .object (given.map (fun (label, value) => (label, complete schema value)))
  | .record fields, value => .object (completeFields fields value)
  | .variant cases, .object [(tag, payload)] => .object [(tag, completeCase cases tag payload)]
  | .list _, value => value
  | .entries _, value => value
  | .variant _, value => value

def completeFields : List (String × Schema) → Value → List (String × Value)
  | [], _ => []
  | (label, schema) :: rest, value =>
      (label, complete schema (value.part label)) :: completeFields rest value

def completeCase : List (String × Schema) → String → Value → Value
  | [], _, payload => payload
  | (other, schema) :: rest, tag, payload =>
      if tag = other then complete schema payload else completeCase rest tag payload

end

end Schema

/-- Writing and reading of a part of a tree, by the schema of its values. -/
structure Exchanged {Part : Type} (schema : Schema) (write : Part → Value)
    (read? : Value → Option Part) : Prop where
  read_write : ∀ part, read? (write part) = some part
  write_of_read : ∀ {value part}, read? value = some part → write part = schema.complete value

theorem Value.word?_eq_some {value : Value} {word : UInt32} :
    value.word? = some word ↔ value = .ofWord word := by
  constructor
  · intro found
    cases value with
    | number number =>
        simp only [word?] at found
        split at found
        · rename_i same
          rw [← Option.some.inj found, ofWord, same]
        · cases found
    | _ => cases found
  · rintro rfl
    simp [ofWord, word?]

theorem Value.int32?_eq_some {value : Value} {word : Int32} :
    value.int32? = some word ↔ value = .ofInt32 word := by
  constructor
  · intro found
    cases value with
    | number number =>
        simp only [int32?] at found
        split at found
        · rename_i same
          rw [← Option.some.inj found, ofInt32, same]
        · cases found
    | _ => cases found
  · rintro rfl
    simp [ofInt32, int32?]

namespace Exchanged

theorem word : Exchanged .plain Value.ofWord Value.word? where
  read_write _ := Value.word?_eq_some.mpr rfl
  write_of_read found := (Value.word?_eq_some.mp found).symm

theorem int32 : Exchanged .plain Value.ofInt32 Value.int32? where
  read_write _ := Value.int32?_eq_some.mpr rfl
  write_of_read found := (Value.int32?_eq_some.mp found).symm

theorem bool : Exchanged .plain Value.bool Value.bool? where
  read_write _ := rfl
  write_of_read := by
    intro value flag found
    cases value with
    | bool flag => cases found; rfl
    | _ => cases found

theorem text : Exchanged .plain Value.string Value.string? where
  read_write _ := rfl
  write_of_read := by
    intro value text found
    cases value with
    | string text => cases found; rfl
    | _ => cases found

/-! ### Composed parts -/

variable {Part Whole : Type} {schema : Schema} {write : Part → Value}
  {read? : Value → Option Part}

/-- A part in a wrapper of its own is exchanged like the part. -/
theorem wrapped (item : Exchanged schema write read?) {make : Part → Whole} {part : Whole → Part}
    (part_make : ∀ inner, part (make inner) = inner)
    (make_part : ∀ whole, make (part whole) = whole) :
    Exchanged schema (fun whole => write (part whole)) (fun value => (read? value).map make) where
  read_write whole := by rw [item.read_write, Option.map_some, make_part]
  write_of_read := by
    intro value whole found
    obtain ⟨inner, read, rfl⟩ := Option.map_eq_some_iff.mp found
    rw [part_make]
    exact item.write_of_read read

/-- A variant that holds nothing, told by a tag of its own. -/
theorem bare {tag : Part → String} {ofTag? : String → Option Part}
    (ofTag_tag : ∀ part, ofTag? (tag part) = some part)
    (tag_ofTag : ∀ {text part}, ofTag? text = some part → tag part = text) :
    Exchanged .bare (fun part => .string (tag part))
      (fun value => value.bareVariant?.bind ofTag?) where
  read_write := ofTag_tag
  write_of_read := by
    intro value part found
    obtain ⟨text, isTag, read⟩ := Option.bind_eq_some_iff.mp found
    rw [tag_ofTag read, Schema.complete, isTag]

theorem mapM_map {Given : Type} {read? : Given → Option Part} {write : Part → Given}
    (read_write : ∀ part, read? (write part) = some part) (parts : List Part) :
    (parts.map write).mapM read? = some parts := by
  induction parts with
  | nil => rfl
  | cons part rest ih => simp [read_write, ih]

theorem map_of_mapM {Given : Type} {read? : Given → Option Part} {write : Part → Given}
    {complete : Given → Given}
    (write_of_read : ∀ {given part}, read? given = some part → write part = complete given)
    {givens : List Given} {parts : List Part} (found : givens.mapM read? = some parts) :
    parts.map write = givens.map complete := by
  induction givens generalizing parts with
  | nil => cases found; rfl
  | cons given rest ih =>
      rw [List.mapM_cons] at found
      obtain ⟨part, readPart, found⟩ := Option.bind_eq_some_iff.mp found
      obtain ⟨others, readOthers, found⟩ := Option.bind_eq_some_iff.mp found
      cases found
      rw [List.map_cons, List.map_cons, write_of_read readPart, ih readOthers]

theorem listOf (item : Exchanged schema write read?) :
    Exchanged (.list schema) (fun parts => .list (parts.map write)) (Value.listOf? read?) where
  read_write := mapM_map item.read_write
  write_of_read := by
    intro value parts found
    obtain ⟨items, isList, read⟩ := Option.bind_eq_some_iff.mp found
    cases value with
    | list given =>
        cases isList
        rw [Schema.complete, map_of_mapM item.write_of_read read]
    | _ => cases isList

/-- A part that may be absent, where null is not the value of a part. -/
theorem nullable (item : Exchanged schema write read?) (read_null : read? .null = none)
    (complete_null : schema.complete .null = .null) :
    Exchanged schema (Value.ofOption write) (Value.nullable? read?) where
  read_write part := by
    cases part with
    | none => rfl
    | some part =>
        have isPart := item.read_write part
        change Value.nullable? read? (write part) = some (some part)
        unfold Value.nullable?
        split
        · rename_i isNull
          rw [isNull, read_null] at isPart
          cases isPart
        · rw [isPart, Option.map_some]
  write_of_read := by
    intro value part found
    unfold Value.nullable? at found
    split at found
    · cases found
      exact complete_null.symm
    · obtain ⟨inner, read, rfl⟩ := Option.map_eq_some_iff.mp found
      exact item.write_of_read read

/-- An object whose labels are data is exchanged entry by entry. -/
theorem entries (item : Exchanged schema write read?) :
    Exchanged (.entries schema)
      (fun parts => .object (parts.map (fun (label, part) => (label, write part))))
      (fun value => value.object?.bind (List.mapM (fun (label, value) =>
        (read? value).bind (fun part => some (label, part))))) where
  read_write := by
    refine mapM_map ?_
    rintro ⟨label, part⟩
    change (read? (write part)).bind (fun part => some (label, part)) = some (label, part)
    rw [item.read_write, Option.bind_some]
  write_of_read := by
    intro value parts found
    obtain ⟨given, isObject, read⟩ := Option.bind_eq_some_iff.mp found
    cases value with
    | object fields =>
        cases isObject
        rw [Schema.complete]
        refine congrArg Value.object (map_of_mapM ?_ read)
        rintro ⟨label, value⟩ part readEntry
        obtain ⟨inner, readInner, isEntry⟩ := Option.bind_eq_some_iff.mp readEntry
        cases isEntry
        change (label, write inner) = (label, schema.complete value)
        rw [item.write_of_read readInner]
    | _ => cases isObject

end Exchanged

structure ExchangedField {Part : Type} (label : String) (schema : Schema) (write : Part → Value)
    (ask? : Value → Option Part) : Prop where
  write_of_ask : ∀ {value part}, ask? value = some part →
    write part = schema.complete (value.part label)

section

variable {Part : Type} {schema : Schema} {write : Part → Value} {read? : Value → Option Part}

theorem Exchanged.field (item : Exchanged schema write read?) (label : String) :
    ExchangedField label schema write (Value.field? label read?) where
  write_of_ask := by
    intro value part found
    obtain ⟨fields, isObject, found⟩ := Option.bind_eq_some_iff.mp found
    obtain ⟨given, isField, read⟩ := Option.bind_eq_some_iff.mp found
    have isPart : value.part label = given := by
      rw [Value.part, isObject, Option.bind_some, isField, Option.getD_some]
    rw [isPart]
    exact item.write_of_read read

/-- A missing field is read like null. -/
theorem Exchanged.optionalField
    (item : Exchanged schema (Value.ofOption write) (Value.nullable? read?)) (label : String) :
    ExchangedField label schema (Value.ofOption write) (Value.optionalField? label read?) where
  write_of_ask := by
    intro value part found
    rw [Value.optionalField?_eq] at found
    obtain ⟨fields, _, read⟩ := Option.bind_eq_some_iff.mp found
    exact item.write_of_read read

end

namespace ExchangedField

variable {First Second Third Whole : Type} {firstLabel secondLabel thirdLabel : String}
  {firstSchema secondSchema thirdSchema : Schema} {writeFirst : First → Value}
  {writeSecond : Second → Value} {writeThird : Third → Value}
  {askFirst? : Value → Option First} {askSecond? : Value → Option Second}
  {askThird? : Value → Option Third} {value : Value} {whole : Whole}

/-- A reading that starts with a field has found it, and goes on with what it found. -/
theorem andThen (field : ExchangedField firstLabel firstSchema writeFirst askFirst?)
    {rest : First → Option Whole} (found : (askFirst? value).bind rest = some whole) :
    ∃ part, rest part = some whole ∧
      writeFirst part = firstSchema.complete (value.part firstLabel) := by
  obtain ⟨part, asked, restFound⟩ := Option.bind_eq_some_iff.mp found
  exact ⟨part, restFound, field.write_of_ask asked⟩

section

variable (first : ExchangedField firstLabel firstSchema writeFirst askFirst?)
  (second : ExchangedField secondLabel secondSchema writeSecond askSecond?)

include first second

theorem record_two {make : First → Second → Whole}
    (found : ((askFirst? value).bind fun one => (askSecond? value).bind fun two =>
      some (make one two)) = some whole) :
    ∃ one two, make one two = whole ∧
      .object [(firstLabel, writeFirst one), (secondLabel, writeSecond two)] =
        (Schema.record [(firstLabel, firstSchema), (secondLabel, secondSchema)]).complete
          value := by
  obtain ⟨one, found, writtenFirst⟩ := first.andThen found
  obtain ⟨two, found, writtenSecond⟩ := second.andThen found
  refine ⟨one, two, Option.some.inj found, ?_⟩
  rw [writtenFirst, writtenSecond]
  rfl

theorem record_three (third : ExchangedField thirdLabel thirdSchema writeThird askThird?)
    {make : First → Second → Third → Whole}
    (found : ((askFirst? value).bind fun one => (askSecond? value).bind fun two =>
      (askThird? value).bind fun three => some (make one two three)) = some whole) :
    ∃ one two three, make one two three = whole ∧
      .object [(firstLabel, writeFirst one), (secondLabel, writeSecond two),
          (thirdLabel, writeThird three)] =
        (Schema.record [(firstLabel, firstSchema), (secondLabel, secondSchema),
          (thirdLabel, thirdSchema)]).complete value := by
  obtain ⟨one, found, writtenFirst⟩ := first.andThen found
  obtain ⟨two, found, writtenSecond⟩ := second.andThen found
  obtain ⟨three, found, writtenThird⟩ := third.andThen found
  refine ⟨one, two, three, Option.some.inj found, ?_⟩
  rw [writtenFirst, writtenSecond, writtenThird]
  rfl

end

end ExchangedField

namespace Value

variable {Part : Type} {read? : Value → Option Part}

@[simp]
theorem field?_cons (label other : String) (value : Value) (rest : List (String × Value)) :
    (Value.object ((other, value) :: rest)).field? label read? =
      if label = other then read? value else (Value.object rest).field? label read? := by
  by_cases same : label = other
  · simp [field?, object?, same]
  · simp [field?, object?, List.lookup_cons, beq_false_of_ne same, if_neg same]

@[simp]
theorem optionalField?_object (label : String) (fields : List (String × Value)) :
    (Value.object fields).optionalField? label read? =
      nullable? read? ((Value.object fields).part label) :=
  optionalField?_eq label (.object fields)

@[simp]
theorem part_cons (label other : String) (value : Value) (rest : List (String × Value)) :
    (Value.object ((other, value) :: rest)).part label =
      if label = other then value else (Value.object rest).part label := by
  by_cases same : label = other
  · simp [part, object?, same]
  · simp [part, object?, List.lookup_cons, beq_false_of_ne same, if_neg same]

theorem variant?_eq_some {value payload : Value} {tag : String} :
    value.variant? = some (tag, payload) ↔ value = .ofVariant tag payload := by
  constructor
  · intro found
    unfold variant? at found
    split at found
    · cases found
      rfl
    · cases found
  · rintro rfl
    rfl

end Value
end TigerTree
