import TriggerFlow.Json.Skip

/-!
# Records in JSON

A record with named fields may be written in two forms: an object, its members in any order and
among members nobody asked for, or a list of the fields' values in the order of declaration. A
`Record` says once what the fields are; **both forms are read from that one description**, so they
cannot drift apart.
-/

set_option autoImplicit false

namespace TriggerFlow.Json

/-- One field of a record that is held in a `σ` while it is read. -/
structure Field (σ : Type) where
  key : String
  /-- Has to be given; without it there is a default. -/
  isRequired : Bool
  /-- Has been read already. -/
  isSet : σ → Bool
  /-- Reads the value of the field. -/
  read : σ → Reader σ

/-- A record, its fields in the order of declaration. -/
structure Record (σ : Type) where
  /-- What messages call it. -/
  title : String
  fields : List (Field σ)
  /-- Before any field is read. -/
  blank : σ

namespace Record

variable {σ : Type}

/-- Reads what belongs to a key after the key itself. A second value for a field is refused before
its colon is looked at; a key without a field has its value passed over. -/
def readMember (r : Record σ) (state : σ) (key : String) : Reader σ := fun cs =>
  match r.fields.find? (·.key = key) with
  | some field =>
    if field.isSet state then .error (.mismatch (.duplicateField key))
    else match readColon cs with
      | .error e => .error e
      | .ok rest => field.read state rest
  | none =>
    match readColon cs with
    | .error e => .error e
    | .ok rest => (skipValue rest).map (state, ·)

/-- The first field, in the order of declaration, that had to be given and was not. -/
def missing? (r : Record σ) (state : σ) : Option (Field σ) :=
  r.fields.find? fun field => field.isRequired && !field.isSet state

/-- One round of reading the form of an object. -/
def memberRound (r : Record σ) : (Bool × σ) → Reader (Text.Round (Bool × σ) σ)
  | (isFirst, state), cs =>
    match nextKey isFirst cs with
    | .error e => .error e
    | .ok none =>
      match r.missing? state with
      | some field => .error (.mismatch (.missingField field.key))
      | none => (closeObject cs).map (.done state, ·)
    | .ok (some (key, cs)) =>
      (r.readMember state key cs).map fun (state, rest) => (.more (false, state), rest)

/-- Reads the form of a list, field by field. `index` fields have been read; those that are left out
at the end keep their defaults if they have one. -/
def readItems (r : Record σ) : List (Field σ) → Nat → σ → Reader σ
  | [], _, state, cs => (closeList cs).map (state, ·)
  | field :: fields, index, state, cs =>
    match nextItem (index = 0) cs with
    | .error e => .error e
    | .ok (some cs) =>
      match field.read state cs with
      | .error e => .error e
      | .ok (state, rest) => readItems r fields (index + 1) state rest
    | .ok none =>
      if field.isRequired then
        .error (.mismatch (.wrongLength index
          (r.title ++ " with " ++ toString r.fields.length ++ " elements")))
      else readItems r fields (index + 1) state cs

/-- A record in either form. -/
def read (r : Record σ) : Reader σ := fun cs =>
  match skipSpace cs with
  | '{' :: rest => loop r.memberRound (true, r.blank) rest
  | '[' :: rest => r.readItems r.fields 0 r.blank rest
  | cs => .error (refuse r.title cs)

end Record

end TriggerFlow.Json
