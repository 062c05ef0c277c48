/-
# Criteria.Json.Fault -- why a JSON text is refused

A text is refused because it is no JSON (`malformed`), because it ends too early
(`truncated`), or because it is JSON of another shape than asked for
(`mismatch`).  The wording of a mismatch is `Mismatch.message`.
-/
import Criteria.Json.Basic
import Criteria.Text.Printable

namespace Criteria.Json

set_option autoImplicit false

/-- What stands at a place where something else was expected. -/
inductive Found where
  | null
  | bool (b : Bool)
  | integer (n : Int)
  | float (x : Float)
  | string (s : String)
  | array
  | object

/-- JSON of the wrong shape. -/
inductive Mismatch where
  | invalidType (found : Found) (expected : String)
  /-- an array ends before the item that has to come next -/
  | invalidLength (count : Nat) (expected : String)
  | missingField (name : String)
  | duplicateField (name : String)
  | unknownVariant (name : String) (known : List String)
  /-- no form of the type fits -/
  | noVariant (type : String)
  /-- of the right shape, and still refused -/
  | refused (reason : String)

inductive Fault where
  | malformed
  | truncated
  | mismatch (m : Mismatch)

def Found.text : Found → String
  | .null => "null"
  | .bool b => "boolean `" ++ (if b then "true" else "false") ++ "`"
  | .integer n => "integer `" ++ .ofList (integerChars n) ++ "`"
  | .float x => "floating point `" ++ Decimal.Layout.json.text x ++ "`"
  | .string s => "string " ++ Text.shown s
  | .array => "sequence"
  | .object => "map"

def quotedName (name : String) : String :=
  "`" ++ name ++ "`"

def Mismatch.message : Mismatch → String
  | .invalidType found expected => "invalid type: " ++ found.text ++ ", expected " ++ expected
  | .invalidLength count expected =>
      "invalid length " ++ Nat.repr count ++ ", expected " ++ expected
  | .missingField name => "missing field " ++ quotedName name
  | .duplicateField name => "duplicate field " ++ quotedName name
  | .unknownVariant name known =>
      "unknown variant " ++ quotedName name ++ ", expected one of " ++
        String.intercalate ", " (known.map quotedName)
  | .noVariant type => "data did not match any variant of untagged enum " ++ type
  | .refused reason => reason

end Criteria.Json
