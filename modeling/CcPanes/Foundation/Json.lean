import Mathlib.Algebra.Group.Int.Defs
import Mathlib.Algebra.Group.Nat.Defs

/-!
# JSON values

The values of a JSON document, with the readers that the handlers use.  The fields of an object are
sorted by their names, as in a `serde_json::Map`.
-/

namespace CcPanes

inductive Json where
  | null
  | bool (b : Bool)
  | number (text : String)
  | string (s : String)
  | array (values : List Json)
  | object (fields : List (String × Json))

namespace Json

def get (key : String) : Json → Option Json
  | object fields => (fields.find? fun f => f.1 = key).map (·.2)
  | _ => none

def asStr : Json → Option String
  | string s => some s
  | _ => none

def isObject : Json → Bool
  | object _ => true
  | _ => false

def asObject : Json → Option (List (String × Json))
  | object fields => some fields
  | _ => none

def asArray : Json → Option (List Json)
  | array values => some values
  | _ => none

def asI64 : Json → Option Int
  | number text => text.toInt?.filter fun n => -2 ^ 63 ≤ n && n < 2 ^ 63
  | _ => none

def asU64 : Json → Option Nat
  | number text =>
    if text.toList.all Char.isDigit then
      (some (Nat.ofDigitChars 10 text.toList 0)).filter fun n => n < 2 ^ 64
    else none
  | _ => none

/-- `Value::pointer`, for names of fields -/
def pointer (names : List String) (json : Json) : Option Json :=
  names.foldlM (fun value name => value.get name) json

/-- `Map::insert` -/
def insertField (key : String) (value : Json) : List (String × Json) → List (String × Json)
  | [] => [(key, value)]
  | (key', value') :: fields =>
    if key' = key then (key, value) :: fields
    else if key < key' then (key, value) :: (key', value') :: fields
    else (key', value') :: insertField key value fields

/-- `Map::remove` -/
def removeField (key : String) (fields : List (String × Json)) : List (String × Json) :=
  fields.filter fun f => f.1 ≠ key

/-- the object of `json!` -/
def ofFields (fields : List (String × Json)) : Json :=
  .object (fields.foldl (fun object f => insertField f.1 f.2 object) [])

def ofOption {α : Type} (f : α → Json) : Option α → Json
  | none => .null
  | some a => f a

/-! ## equality -/

mutual

def same : Json → Json → Bool
  | .null, .null => true
  | .bool a, .bool b => a = b
  | .number a, .number b => a = b
  | .string a, .string b => a = b
  | .array as, .array bs => sameValues as bs
  | .object fs, .object gs => sameFields fs gs
  | _, _ => false

def sameValues : List Json → List Json → Bool
  | [], [] => true
  | a :: as, b :: bs => same a b && sameValues as bs
  | _, _ => false

def sameFields : List (String × Json) → List (String × Json) → Bool
  | [], [] => true
  | (k, a) :: fs, (l, b) :: gs => k = l && same a b && sameFields fs gs
  | _, _ => false

end

mutual

theorem same_iff : ∀ a b : Json, same a b = true ↔ a = b
  | .null, b => by cases b <;> simp [same]
  | .bool a, b => by cases b <;> simp [same]
  | .number a, b => by cases b <;> simp [same]
  | .string a, b => by cases b <;> simp [same]
  | .array as, b => by
    cases b with
    | array bs => simp [same, sameValues_iff as bs]
    | _ => simp [same]
  | .object fs, b => by
    cases b with
    | object gs => simp [same, sameFields_iff fs gs]
    | _ => simp [same]

theorem sameValues_iff : ∀ as bs : List Json, sameValues as bs = true ↔ as = bs
  | [], bs => by cases bs <;> simp [sameValues]
  | a :: as, bs => by
    cases bs with
    | nil => simp [sameValues]
    | cons b bs => simp [sameValues, same_iff a b, sameValues_iff as bs]

theorem sameFields_iff : ∀ fs gs : List (String × Json), sameFields fs gs = true ↔ fs = gs
  | [], gs => by cases gs <;> simp [sameFields]
  | (k, a) :: fs, gs => by
    cases gs with
    | nil => simp [sameFields]
    | cons g gs =>
      obtain ⟨l, b⟩ := g
      simp [sameFields, same_iff a b, sameFields_iff fs gs]

end

instance : DecidableEq Json := fun a b => decidable_of_iff _ (same_iff a b)

end Json

end CcPanes
