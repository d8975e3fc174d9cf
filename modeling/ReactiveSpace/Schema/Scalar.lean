/-!
# Scalars

The kinds of value that one reactive cell can hold, and what each of them may be used for.
-/

namespace ReactiveSpace

/-- A kind of scalar value. -/
inductive Scalar where
  | bool
  | int
  | long
  | double
  | string
  | principal
  | date
  | datetime
  | time
  | timespan
  /-- Any value of the data format. -/
  | dynamic
  /-- Three doubles. -/
  | vector
  /-- A label of a state machine. -/
  | label
deriving DecidableEq, Inhabited

namespace Scalar

/-- All scalars, in the order of their declaration. -/
def all : List Scalar :=
  [bool, int, long, double, string, principal, date, datetime, time, timespan, dynamic, vector,
   label]

/-- The name that declarations, diagnostics and reflections use. -/
def name : Scalar → String
  | bool => "bool"
  | int => "int"
  | long => "long"
  | double => "double"
  | string => "string"
  | principal => "principal"
  | date => "date"
  | datetime => "datetime"
  | time => "time"
  | timespan => "timespan"
  | dynamic => "dynamic"
  | vector => "vec3"
  | label => "label"

/-- The scalar of the given name. -/
def ofName? (name : String) : Option Scalar :=
  all.find? fun s => s.name == name

/-- Whether values can be the keys of a map. -/
def isMapDomain : Scalar → Bool
  | int | long | string | principal => true
  | _ => false

/-- Whether values can be ordered. -/
def isOrderable : Scalar → Bool
  | bool | dynamic | vector | label => false
  | _ => true

/-- Whether values can be indexed in a table. -/
def isIndexable : Scalar → Bool
  | double | timespan | dynamic | vector => false
  | _ => true

theorem ofName?_name (s : Scalar) : ofName? s.name = some s := by
  cases s <;> decide

end Scalar

end ReactiveSpace
