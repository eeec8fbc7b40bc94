/-! Structured values in which trees are exchanged, and the small readings all formats share. -/

set_option autoImplicit false

namespace TigerTree

inductive Value where
  | null
  | bool (value : Bool)
  | number (value : Int)
  /-- A number written with a fraction. No format has one, so its digits are dropped. -/
  | fraction
  | string (value : String)
  | list (items : List Value)
  | object (fields : List (String × Value))
  deriving Inhabited

namespace Value

def ofWord (word : UInt32) : Value := .number word.toNat

def ofInt32 (value : Int32) : Value := .number value.toInt

def ofOption {Part : Type} (write : Part → Value) : Option Part → Value
  | none => .null
  | some part => write part

def ofVariant (tag : String) (payload : Value) : Value := .object [(tag, payload)]

def bool? : Value → Option Bool
  | .bool value => some value
  | _ => none

def string? : Value → Option String
  | .string value => some value
  | _ => none

def word? : Value → Option UInt32
  | .number value =>
      let word := UInt32.ofNat value.toNat
      if (word.toNat : Int) = value then some word else none
  | _ => none

def int32? : Value → Option Int32
  | .number value =>
      let word := Int32.ofInt value
      if word.toInt = value then some word else none
  | _ => none

def list? : Value → Option (List Value)
  | .list items => some items
  | _ => none

def object? : Value → Option (List (String × Value))
  | .object fields => some fields
  | _ => none

/-- A field that must be there; fields that are not asked for do not matter. -/
def field? {Part : Type} (label : String) (read : Value → Option Part) (value : Value) :
    Option Part := do
  let fields ← value.object?
  let part ← fields.lookup label
  read part

def optionalField? {Part : Type} (label : String) (read : Value → Option Part)
    (value : Value) : Option (Option Part) := do
  let fields ← value.object?
  match fields.lookup label with
  | none | some .null => some none
  | some part => (read part).map some

def variant? : Value → Option (String × Value)
  | .object [(tag, payload)] => some (tag, payload)
  | _ => none

/-- The tag of a variant that holds nothing: the tag alone, or the tag with null. -/
def bareVariant? : Value → Option String
  | .string tag => some tag
  | .object [(tag, .null)] => some tag
  | _ => none

end Value
end TigerTree
