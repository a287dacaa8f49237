import Mathlib.Tactic.Common

/-! JSON documents as a program holds them after parsing. An object is the list of its items, each
key at most once; floating-point numbers are a parameter. -/

namespace AgreementIntelligence.Lib.Json

inductive Json (φ : Type) where
  | null
  | bool (value : Bool)
  | int (value : Int)
  | float (value : φ)
  | string (value : String)
  | array (items : List (Json φ))
  | object (fields : List (String × Json φ))

variable {φ : Type}

/-- `fields.get(key)`, `null` when there is no such key. -/
def get (fields : List (String × Json φ)) (key : String) : Json φ :=
  (fields.lookup key).getD .null

/-- `set(fields) == keys` -/
def hasKeys (fields : List (String × Json φ)) (keys : List String) : Bool :=
  fields.all (fun item => item.1 ∈ keys) && keys.all (fun key => key ∈ fields.map Prod.fst)

/-- `value if isinstance(value, str) else default` -/
def stringOr (value : Json φ) (default : String) : String :=
  match value with
  | .string text => text
  | _ => default

@[simp] theorem get_nil (key : String) : get ([] : List (String × Json φ)) key = .null := rfl

@[simp] theorem stringOr_string (text default : String) :
    stringOr (.string text : Json φ) default = text := rfl

@[simp] theorem stringOr_null (default : String) :
    stringOr (.null : Json φ) default = default := rfl

end AgreementIntelligence.Lib.Json
