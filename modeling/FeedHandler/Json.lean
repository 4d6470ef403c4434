import Mathlib.Data.Rat.Init
import Mathlib.Data.List.Defs
/-!
# JSON values

The values both ports read from the wire, with the accessors of the Rust port's
library. An object has each of its keys once, as the text parser leaves it; a
number is a natural number, a negative integer or any other finite one.
-/

namespace FeedHandler

inductive Json
  | null
  | bool (b : Bool)
  | posInt (n : Nat)
  | negInt (n : Int)
  | float (x : Rat)
  | string (s : String)
  | array (elements : List Json)
  | object (fields : List (String × Json))

namespace Json

/-- `get(key)`: only an object has fields. -/
def get (key : String) : Json → Option Json
  | object fields => fields.lookup key
  | _ => none

/-- `value[key]`: a missing field reads as null. -/
def index (key : String) (v : Json) : Json := (v.get key).getD null

def asStr : Json → Option String
  | string s => some s
  | _ => none

def asU64 : Json → Option Nat
  | posInt n => some n
  | _ => none

def asArray : Json → Option (List Json)
  | array elements => some elements
  | _ => none

def entries (v : Json) : List Json := v.asArray.getD []

def getStr (key : String) (v : Json) : Option String := (v.get key).bind asStr

@[simp] theorem asStr_string (s : String) : (string s).asStr = some s := rfl

@[simp] theorem asArray_array (elements : List Json) :
    (array elements).asArray = some elements := rfl

theorem asArray_eq_some {v : Json} {elements : List Json} :
    v.asArray = some elements ↔ v = array elements := by
  cases v <;> simp [asArray]

end Json

end FeedHandler
