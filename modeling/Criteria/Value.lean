/-
# Criteria.Value -- the values that conditions carry

A value has a natural text (`Value.text`), which is what an inlined literal shows
and says nothing about its kind, and a JSON form (`Value.toJson`), which keeps
kinds apart except that an instant becomes a string.

A number may stand for "nothing given": `Value.isZero` tells the numbers, and the
strings that write a number, which are zero.
-/
import Criteria.Calendar.Text
import Criteria.Decimal.Layout

namespace Criteria

set_option autoImplicit false

open Calendar (Instant)

inductive Value where
  | null
  | bool (b : Bool)
  | int (n : Int64)
  | float (x : Float)
  | string (s : String)
  /-- a constant with a symbolic name -/
  | enum (name : String)
  | date (i : Instant)
  | array (items : List Value)
  deriving Inhabited

namespace Value

/-- What a value is, its content aside. -/
inductive Kind where
  | null
  | bool
  | int
  | float
  | string
  | enum
  | date
  | array
  deriving DecidableEq, Repr

def Kind.name : Kind → String
  | .null => "null"
  | .bool => "boolean"
  | .int => "integer"
  | .float => "float"
  | .string => "string"
  | .enum => "enum"
  | .date => "date"
  | .array => "array"

def kind : Value → Kind
  | .null => .null
  | .bool _ => .bool
  | .int _ => .int
  | .float _ => .float
  | .string _ => .string
  | .enum _ => .enum
  | .date _ => .date
  | .array _ => .array

def isNull : Value → Bool
  | .null => true
  | _ => false

theorem isNull_iff {v : Value} : v.isNull = true ↔ v = .null := by
  cases v <;> simp [isNull]

/-- A number that is zero, or a string that writes a number which rounds to zero. -/
def isZero : Value → Bool
  | .int n => n == 0
  | .float x => x == 0.0
  | .string s => Decimal.denotesZero (Text.trim s.toList)
  | _ => false

/-- The form in which a value is bound to a placeholder: a constant by its name. -/
def toBind : Value → Value
  | .enum name => .string name
  | v => v

theorem isNull_toBind (v : Value) : v.toBind.isNull = v.isNull := by
  cases v <;> rfl

theorem toBind_toBind (v : Value) : v.toBind.toBind = v.toBind := by
  cases v <;> rfl

/-! ## Text -/

def intChars (n : Int64) : List Char :=
  Int.repr n.toInt |>.toList

mutual

def chars : Value → List Char
  | .null => ['N', 'U', 'L', 'L']
  | .bool true => ['t', 'r', 'u', 'e']
  | .bool false => ['f', 'a', 'l', 's', 'e']
  | .int n => intChars n
  | .float x => Decimal.Layout.plain.chars (.ofFloat x)
  | .string s => s.toList
  | .enum name => name.toList
  | .date i => i.sqlChars
  | .array items => '[' :: itemsChars items ++ [']']

def itemsChars : List Value → List Char
  | [] => []
  | [item] => item.chars
  | item :: rest => item.chars ++ ',' :: ' ' :: itemsChars rest

end

/-- The natural text of a value, unquoted. -/
def text (v : Value) : String :=
  .ofList v.chars

/-! ## Equality

Numbers are compared as numbers: the two zeros of a double are equal, and what is
not a number differs from itself. -/

mutual

def same : Value → Value → Bool
  | .null, .null => true
  | .bool a, .bool b => a == b
  | .int m, .int n => m == n
  | .float x, .float y => x == y
  | .string s, .string t => s == t
  | .enum s, .enum t => s == t
  | .date i, .date j => i == j
  | .array vs, .array ws => sameItems vs ws
  | _, _ => false

def sameItems : List Value → List Value → Bool
  | [], [] => true
  | v :: vs, w :: ws => v.same w && sameItems vs ws
  | _, _ => false

end

end Value

end Criteria
