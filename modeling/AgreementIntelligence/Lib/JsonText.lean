import AgreementIntelligence.Lib.Json
import AgreementIntelligence.Lib.Sha256
import Mathlib.Data.Char
import Mathlib.Data.List.Lex
import Mathlib.Data.List.Sort

/-! The text of a JSON document, as `json.dumps` writes it with sorted keys and no blanks. -/

namespace AgreementIntelligence.Lib.Json
open Sha256

/-- `\uXXXX` -/
def escapeUnit (unit : Nat) : List Char :=
  '\\' :: 'u' :: hexDigits 4 unit

/-- A character of a string; what is no printable ASCII is escaped, in two units above the basic
plane. -/
def escapeChar (c : Char) : List Char :=
  if c = '"' then ['\\', '"']
  else if c = '\\' then ['\\', '\\']
  else if c = '\n' then ['\\', 'n']
  else if c = '\r' then ['\\', 'r']
  else if c = '\t' then ['\\', 't']
  else if c.toNat = 8 then ['\\', 'b']
  else if c.toNat = 12 then ['\\', 'f']
  else if 32 ≤ c.toNat ∧ c.toNat ≤ 126 then [c]
  else if c.toNat < 0x10000 then escapeUnit c.toNat
  else
    escapeUnit (0xD800 + (c.toNat - 0x10000) / 0x400) ++
      escapeUnit (0xDC00 + (c.toNat - 0x10000) % 0x400)

def quoteText (text : String) : String :=
  String.ofList ('"' :: text.toList.flatMap escapeChar ++ ['"'])

/-- The items of an object by their keys; Python compares texts by code points. -/
def sortedFields (fields : List (String × String)) : List (String × String) :=
  fields.insertionSort fun a b => a.1.toList ≤ b.1.toList

variable {φ : Type} (floatText : φ → String)

mutual
/-- `json.dumps(value, sort_keys=True, separators=(",", ":"))` -/
def dumps : Json φ → String
  | .null => "null"
  | .bool value => if value then "true" else "false"
  | .int value => toString value
  | .float value => floatText value
  | .string value => quoteText value
  | .array items => "[" ++ ",".intercalate (dumpsItems items) ++ "]"
  | .object fields =>
    "\x7b" ++ ",".intercalate ((sortedFields (dumpsFields fields)).map fun field =>
      quoteText field.1 ++ ":" ++ field.2) ++ "\x7d"

def dumpsItems : List (Json φ) → List String
  | [] => []
  | item :: rest => dumps item :: dumpsItems rest

def dumpsFields : List (String × Json φ) → List (String × String)
  | [] => []
  | (key, value) :: rest => (key, dumps value) :: dumpsFields rest
end

end AgreementIntelligence.Lib.Json
