/-
# Criteria.Schema.Coercion -- values made to fit their column

A comparison with a column of instants wants an instant.  `epochMillis` makes one
of a number, read as milliseconds since 1970, and of a string that writes a date
or a timestamp; everything else becomes null, which constrains nothing.  Values of
all other columns are left as they are.
-/
import Criteria.Schema

namespace Criteria

set_option autoImplicit false

open Calendar (Instant)

/-- Makes a value fit a column type; null means that the value cannot constrain
such a column. -/
def Coercion : Type :=
  ColumnType → Value → Value

namespace Coercion

def ofInstant? : Option Instant → Value
  | some i => .date i
  | none => .null

/-- The instant that a value means for a column of instants. -/
def toInstant? : Value → Option Instant
  | .int n => Instant.ofMillis? n.toInt
  | .float x => (Decimal.Binary64.ofFloat x).truncate.bind Instant.ofMillis?
  | .string s => Calendar.readInstant? s
  | .date i => some i
  | _ => none

/-- Numbers are milliseconds, strings are dates. -/
def epochMillis : Coercion := fun type v =>
  if type.isTemporal then ofInstant? (toInstant? v) else v

theorem epochMillis_other {type : ColumnType} (other : type.isTemporal = false) (v : Value) :
    epochMillis type v = v := by
  simp [epochMillis, other]

theorem epochMillis_date (type : ColumnType) (i : Instant) :
    epochMillis type (.date i) = .date i := by
  simp [epochMillis, toInstant?, ofInstant?]

/-- What can be compared with a column of instants is an instant. -/
theorem exists_date_of_epochMillis {type : ColumnType} (temporal : type.isTemporal = true)
    {v : Value} (present : (epochMillis type v).isNull = false) :
    ∃ i, epochMillis type v = .date i := by
  rw [epochMillis, if_pos temporal] at present ⊢
  cases found : toInstant? v with
  | none =>
      rw [found] at present
      cases present
  | some i => exact ⟨i, rfl⟩

/-- No value constrains a column of instants. -/
def withoutDates : Coercion := fun type v =>
  if type.isTemporal then .null else v

end Coercion

end Criteria
