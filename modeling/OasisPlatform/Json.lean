import Mathlib.Data.List.Infix
import Mathlib.Data.Rat.Defs

/-!
JSON values as Python holds them after `json.loads`, with the operations on them that may
raise. An operation that raises gives `none`.
-/
namespace OasisPlatform.JsonValues
set_option linter.unusedSimpArgs false

/-- A value; an object has each key once, in the order of the text. -/
inductive Json where
  | null
  | bool (value : Bool)
  | number (value : Rat)
  | string (text : String)
  | array (items : List Json)
  | object (fields : List (String × Json))

namespace Json

/-- `bool(value)`. -/
def truthy : Json → Bool
  | .null => false
  | .bool value => value
  | .number value => value ≠ 0
  | .string text => text ≠ ""
  | .array items => !items.isEmpty
  | .object fields => !fields.isEmpty

/-- `value.get(key, default)`; without a default it is `null`. -/
def get (value : Json) (key : String) (default : Json) : Option Json :=
  match value with
  | .object fields => some ((fields.lookup key).getD default)
  | _ => none

/-- `value[key]`. -/
def item (value : Json) (key : String) : Option Json :=
  match value with
  | .object fields => fields.lookup key
  | _ => none

/-- `len(value)`. -/
def length : Json → Option Nat
  | .string text => some text.length
  | .array items => some items.length
  | .object fields => some fields.length
  | _ => none

/-- What `for x in value` goes through. -/
def elements : Json → Option (List Json)
  | .string text => some (text.toList.map fun c => .string (String.singleton c))
  | .array items => some items
  | .object fields => some (fields.map fun field => .string field.1)
  | _ => none

/-- `hash(value)` does not raise. -/
def hashable : Json → Bool
  | .array _ => false
  | .object _ => false
  | _ => true

/-- The value as a number: Python's `True` and `False` are one and zero. -/
def numeric : Json → Option Rat
  | .bool value => some (if value then 1 else 0)
  | .number value => some value
  | _ => none

mutual

/-- Python's `==`. -/
def same : Json → Json → Bool
  | .null,.null => true
  | .bool a,other => other.numeric = some (if a then 1 else 0)
  | .number a,other => other.numeric = some a
  | .string a,.string b => a = b
  | .array items,.array others => sameItems items others
  | .object fields,.object others => fields.length = others.length && sameFields fields others
  | _,_ => false

def sameItems : List Json → List Json → Bool
  | [],[] => true
  | item :: rest,other :: others => same item other && sameItems rest others
  | _,_ => false

/-- Every field is among the others. -/
def sameFields : List (String × Json) → List (String × Json) → Bool
  | [],_ => true
  | (key,value) :: rest,others =>
    (match others.lookup key with
      | some other => same value other
      | none => false) && sameFields rest others

end

/-- `key in value`. -/
def contains (value : Json) (key : String) : Option Bool :=
  match value with
  | .string text => some (decide (key.toList <:+: text.toList))
  | .array items => some (items.any (same (.string key)))
  | .object fields => some (fields.lookup key).isSome
  | _ => none

/-- `part` is the value itself or lies in it at some depth. -/
inductive Part : Json → Json → Prop where
  | self (value : Json) : Part value value
  | item {items : List Json} {item part : Json} : item ∈ items → Part item part → Part (.array items) part
  | field {fields : List (String × Json)} {field : String × Json} {part : Json} :
      field ∈ fields → Part field.2 part → Part (.object fields) part

/-- Every object in the value, at any depth, has fields like these. -/
def Everywhere (P : List (String × Json) → Prop) (value : Json) : Prop := ∀ fields, Part value (.object fields) → P fields

/-- No object has a key twice, as no Python dictionary does. -/
def Distinct (value : Json) : Prop := value.Everywhere fun fields => (fields.map Prod.fst).Nodup

/-- Induction on a value through the items and fields it has. -/
theorem induct {motive : Json → Prop} (null : motive .null) (bool : ∀ value, motive (.bool value))
    (number : ∀ value, motive (.number value)) (string : ∀ text, motive (.string text))
    (array : ∀ items, (∀ item ∈ items, motive item) → motive (.array items))
    (object : ∀ fields, (∀ field ∈ fields, motive field.2) → motive (.object fields)) (value : Json) :
    motive value := by
  induction bound : sizeOf value using Nat.strong_induction_on generalizing value with
  | _ bound ih =>
    subst bound
    cases value with
    | null => exact null
    | bool value => exact bool value
    | number value => exact number value
    | string text => exact string text
    | array items =>
      refine array items fun item member => ih (sizeOf item) ?_ item rfl
      have smaller := List.sizeOf_lt_of_mem member
      simp only [Json.array.sizeOf_spec]
      omega
    | object fields =>
      refine object fields fun field member => ih (sizeOf field.2) ?_ field.2 rfl
      have smaller := List.sizeOf_lt_of_mem member
      have second : sizeOf field = 1 + sizeOf field.1 + sizeOf field.2 := rfl
      simp only [Json.object.sizeOf_spec]
      omega

variable {P : List (String × Json) → Prop}

theorem everywhere_string (text : String) : (Json.string text).Everywhere P := fun _ part => nomatch part

theorem everywhere_array {items : List Json} :
    (Json.array items).Everywhere P ↔ ∀ item ∈ items, item.Everywhere P := by
  constructor
  · intro all item member fields part
    exact all fields (.item member part)
  · intro all fields part
    cases part with
    | item member part => exact all _ member fields part

theorem everywhere_object {fields : List (String × Json)} :
    (Json.object fields).Everywhere P ↔ P fields ∧ ∀ field ∈ fields, field.2.Everywhere P := by
  constructor
  · intro all
    exact ⟨all fields (.self _),fun field member inner part => all inner (.field member part)⟩
  · rintro ⟨here,deeper⟩ inner part
    cases part with
    | self => exact here
    | field member part => exact deeper _ member inner part

end Json

end OasisPlatform.JsonValues
