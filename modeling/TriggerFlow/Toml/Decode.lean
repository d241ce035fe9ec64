import TriggerFlow.Toml.Fault
import TriggerFlow.Toml.Value

/-!
# Taking values out of TOML

What a text holds is turned into what is wanted, and told apart by kind if it is something else. A
record may be given as a table or as a list of its fields' values in order; **members and items that
nobody asked for are passed over**, and a field that is not given keeps its default.
-/

set_option autoImplicit false

namespace TriggerFlow.Toml

/-- What a value is, where it is not what is wanted. -/
def Value.met : Value → Met
  | .text s => .text s
  | .integer n => .integer n
  | .number x => .number x
  | .bool b => .bool b
  | .moment | .table _ _ => .object
  | .list _ | .tables _ => .list

def Value.mismatch {α : Type} (expected : String) (v : Value) : Except Fault α :=
  .error (.mismatch (.wrongType v.met expected))

/-! ## Values without parts -/

/-- A whole number that is not negative. -/
def Value.natural : Value → Except Fault Nat
  | .integer (.ofNat n) => .ok n
  | .integer n => .error (.mismatch (.wrongValue (.integer n) "u64"))
  | v => v.mismatch "u64"

def Value.flag : Value → Except Fault Bool
  | .bool b => .ok b
  | v => v.mismatch "a boolean"

/-- A text, where `expected` says what kind of text. -/
def Value.textAs (expected : String) : Value → Except Fault String
  | .text s => .ok s
  | v => v.mismatch expected

/-! ## Variants -/

/-- The content of a variant that has none. -/
private def Value.nothing : Value → Except Fault Unit
  | .table _ [] | .list [] | .tables [] => .ok ()
  | .table _ _ | .list _ => .error (.variantContent "empty table")
  | .tables _ => .error (.variantContent "empty array")
  | .text _ => .error (.variantContent "table, found string")
  | .integer _ => .error (.variantContent "table, found integer")
  | .number _ => .error (.variantContent "table, found float")
  | .bool _ => .error (.variantContent "table, found boolean")
  | .moment => .error (.variantContent "table, found datetime")

/-- One of some names: as a text, or as the key of the only member of a table, with nothing in
it. -/
def Value.variant {α : Type} (ofName? : String → Option α) (known : String) :
    Value → Except Fault α
  | .text s => named s
  | .table _ [(key, v)] => do
    let a ← named key
    v.nothing
    return a
  | .table _ members => .error (.noSingleVariant members.length)
  | _ => .error .noVariant
where
  named (s : String) : Except Fault α :=
    match ofName? s with
    | some a => .ok a
    | none => .error (.mismatch (.unknownVariant s known))

/-! ## Records -/

/-- One field of a record: its key and how its value changes the record. -/
structure Field (σ : Type) where
  key : String
  decode : σ → Value → Except Fault σ

/-- Takes the members of a table in their order. -/
def decodeMembers {σ : Type} (fields : List (Field σ)) (default : σ) (members : Table) :
    Except Fault σ :=
  members.foldlM (fun s m =>
    match fields.find? (·.key = m.1) with
    | some field => field.decode s m.2
    | none => .ok s) default

/-- Takes the items of a list as the fields in their order. -/
def decodeItems {σ : Type} (fields : List (Field σ)) (default : σ) (items : List Value) :
    Except Fault σ :=
  (fields.zip items).foldlM (fun s (field, v) => field.decode s v) default

/-- A record in either form. A date counts as a table without known members. -/
def Value.record {σ : Type} (title : String) (fields : List (Field σ)) (default : σ) :
    Value → Except Fault σ
  | .table _ members => decodeMembers fields default members
  | .list items => decodeItems fields default items
  | .tables items => decodeItems fields default (items.map (.table .header))
  | .moment => .ok default
  | v => v.mismatch title

end TriggerFlow.Toml
