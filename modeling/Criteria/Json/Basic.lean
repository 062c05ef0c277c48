/-
# Criteria.Json.Basic -- JSON values and their text

`Json` is a JSON value with the fields of an object in their written order.
`Json.chars` is its compact text, `Json.prettyChars` the same with one item a
line.  In a string only the quote, the backslash and the controls below a space
are escaped.
-/
import Criteria.Decimal.Layout

namespace Criteria

set_option autoImplicit false

/-- A JSON value.  Integers are kept apart from all other numbers. -/
inductive Json where
  | null
  | bool (b : Bool)
  | integer (n : Int)
  | float (x : Float)
  | string (s : String)
  | array (items : List Json)
  | object (fields : List (String × Json))

namespace Json

/-! ## Strings -/

def hexDigit (n : Nat) : Char :=
  Nat.digitChar n

/-- The escape that a string's character is written as, if it needs one. -/
def escape? (c : Char) : Option (List Char) :=
  if c = '"' then some ['\\', '"']
  else if c = '\\' then some ['\\', '\\']
  else if c = '\x08' then some ['\\', 'b']
  else if c = '\x09' then some ['\\', 't']
  else if c = '\x0a' then some ['\\', 'n']
  else if c = '\x0c' then some ['\\', 'f']
  else if c = '\x0d' then some ['\\', 'r']
  else if c.toNat < 32 then
    some ['\\', 'u', '0', '0', hexDigit (c.toNat / 16), hexDigit (c.toNat % 16)]
  else none

def escaped (text : List Char) : List Char :=
  text.flatMap fun c => (escape? c).getD [c]

def quoted (s : String) : List Char :=
  '"' :: escaped s.toList ++ ['"']

/-! ## Compact text -/

def integerChars (n : Int) : List Char :=
  if n < 0 then '-' :: Nat.toDigits 10 n.natAbs else Nat.toDigits 10 n.natAbs

mutual

def chars : Json → List Char
  | .null => ['n', 'u', 'l', 'l']
  | .bool true => ['t', 'r', 'u', 'e']
  | .bool false => ['f', 'a', 'l', 's', 'e']
  | .integer n => integerChars n
  | .float x => Decimal.Layout.json.chars (.ofFloat x)
  | .string s => quoted s
  | .array items => '[' :: itemsChars items ++ [']']
  | .object fields => '{' :: fieldsChars fields ++ ['}']

/-- The items of an array with commas between them. -/
def itemsChars : List Json → List Char
  | [] => []
  | [item] => item.chars
  | item :: rest => item.chars ++ ',' :: itemsChars rest

/-- The fields of an object with commas between them. -/
def fieldsChars : List (String × Json) → List Char
  | [] => []
  | [(name, value)] => quoted name ++ ':' :: value.chars
  | (name, value) :: rest => quoted name ++ ':' :: value.chars ++ ',' :: fieldsChars rest

end

def compact (j : Json) : String :=
  .ofList j.chars

/-! ## One item a line -/

/-- A line break and two blanks for every open container. -/
def lineBreak (level : Nat) : List Char :=
  '\n' :: List.replicate (2 * level) ' '

mutual

def prettyChars (level : Nat) : Json → List Char
  | .array items =>
      if items.isEmpty then ['[', ']']
      else '[' :: prettyItems (level + 1) items ++ lineBreak level ++ [']']
  | .object fields =>
      if fields.isEmpty then ['{', '}']
      else '{' :: prettyFields (level + 1) fields ++ lineBreak level ++ ['}']
  | scalar => scalar.chars

def prettyItems (level : Nat) : List Json → List Char
  | [] => []
  | [item] => lineBreak level ++ item.prettyChars level
  | item :: rest => lineBreak level ++ item.prettyChars level ++ ',' :: prettyItems level rest

def prettyFields (level : Nat) : List (String × Json) → List Char
  | [] => []
  | [(name, value)] => lineBreak level ++ quoted name ++ ':' :: ' ' :: value.prettyChars level
  | (name, value) :: rest =>
      lineBreak level ++ quoted name ++ ':' :: ' ' :: value.prettyChars level ++
        ',' :: prettyFields level rest

end

def pretty (j : Json) : String :=
  .ofList (j.prettyChars 0)

end Json

end Criteria
