/-
# Criteria.Fault -- why conditions are not compiled

One type for everything that can go wrong, and one function, `Fault.message`,
that words it.  A fault of construction is one that the conditions themselves
cause: it shows before any SQL reaches a database.
-/
import Criteria.Json.Fault
import Criteria.Value

namespace Criteria

set_option autoImplicit false

/-- How the items of a written-out list are rendered, all of them alike. -/
inductive LiteralKind where
  /-- quoted text; blank items are left out -/
  | text
  /-- quoted names of constants -/
  | enum
  /-- the natural text, unquoted -/
  | plain
  deriving DecidableEq, Repr

def LiteralKind.name : LiteralKind → String
  | .text => "string"
  | .enum => "enum"
  | .plain => "numeric"

/-- Why a file could not be read. -/
inductive FileFault where
  | missing
  | isDirectory
  | notDirectory
  | nameTooLong
  | notText
  deriving DecidableEq, Repr

inductive Fault where
  | undeclaredField (schema field : String)
  | unknownSchema (name : String)
  | invalidKey (text : String)
  | emptyMembership (key : String)
  /-- an item of another kind than its list; `none` expects any scalar -/
  | mixedMembership (key : String) (expected : Option LiteralKind) (found : Value.Kind)
  | nestingTooDeep (limit : Nat)
  | unknownDialect (name : String)
  | file (cause : FileFault)
  | json (cause : Json.Fault)
  | toml

def FileFault.message : FileFault → String
  | .missing => "No such file or directory (os error 2)"
  | .isDirectory => "Is a directory (os error 21)"
  | .notDirectory => "Not a directory (os error 20)"
  | .nameTooLong => "File name too long (os error 36)"
  | .notText => "stream did not contain valid UTF-8"

namespace Fault

/-- The wording.  What a JSON or TOML text has wrong with it is not part of it. -/
def message : Fault → String
  | .undeclaredField schema field => "Property of " ++ schema ++ " not exists: " ++ field
  | .unknownSchema name => "Unknown schema: '" ++ name ++ "'"
  | .invalidKey text => "Invalid key: '" ++ text ++ "'"
  | .emptyMembership key => "Empty membership list for '" ++ key ++ "'"
  | .mixedMembership key expected found =>
      "Mixed membership list for '" ++ key ++ "': expected " ++
        (expected.map LiteralKind.name).getD "scalar" ++ " literals, found " ++ found.name
  | .nestingTooDeep limit => "Condition tree nested deeper than " ++ Nat.repr limit ++ " levels"
  | .unknownDialect name => "Configuration error: unknown dialect '" ++ name ++ "'"
  | .file cause => "IO error: " ++ cause.message
  | .json _ => "JSON error"
  | .toml => "TOML error"

/-- Whether the conditions themselves are at fault, and not a file, a format or
the configuration. -/
def isConstruction : Fault → Bool
  | .unknownDialect _ => false
  | .file _ => false
  | .json _ => false
  | .toml => false
  | _ => true

end Fault

end Criteria
