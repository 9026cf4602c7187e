import Mathlib

/-!
# JSON values

A value as `serde_json` reads it, and the ways in which the code asks for a part of one.
-/

namespace LocalDesk
namespace Json

/-- `serde_json::Number`. -/
inductive Number where
  | posInt (value : Nat)
  | negInt (value : Int)
  | float (value : ℚ)

/-- `serde_json::Value`. -/
inductive Value where
  | null
  | bool (value : Bool)
  | number (value : Number)
  | string (text : List Char)
  | array (items : List Value)
  | object (members : List (String × Value))

namespace Value

def get (key : String) : Value → Option Value
  | .object members => (members.find? fun entry => entry.1 = key).map Prod.snd
  | _ => none

/-- `value[key]` -/
def index (value : Value) (key : String) : Value := (value.get key).getD .null

def asStr : Value → Option (List Char)
  | .string text => some text
  | _ => none

def asBool : Value → Option Bool
  | .bool value => some value
  | _ => none

def asArray : Value → Option (List Value)
  | .array items => some items
  | _ => none

def asU64 : Value → Option Nat
  | .number (.posInt value) => some value
  | _ => none

def asF64 : Value → Option ℚ
  | .number (.posInt value) => some value
  | .number (.negInt value) => some value
  | .number (.float value) => some value
  | _ => none

/-- `Value::pointer`, for keys that are not the index of an array. -/
def pointer (keys : List String) (value : Value) : Option Value :=
  keys.foldl (fun found key => found.bind (get key)) (some value)

/-- `get(first).or_else(|| get(second)).and_then(as_str)` -/
def strOf (first second : String) (value : Value) : Option (List Char) :=
  ((value.get first).or (value.get second)).bind asStr

def hasType (types : List String) (value : Value) : Bool :=
  match (value.get "type").bind asStr with
  | some text => types.any fun name => name.toList = text
  | none => false

end Value
end Json
end LocalDesk
