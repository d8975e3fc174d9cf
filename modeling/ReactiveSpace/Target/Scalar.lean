import ReactiveSpace.Schema.Scalar

/-!
# Scalars in the target source

The spellings that generated source uses for a scalar: the reactive cell, the plain value, its
default, its delta, the key it gives to an index and the way two of its values are ordered.
-/

namespace ReactiveSpace.Scalar

/-- The type of the reactive cell. -/
def cellType : Scalar → String
  | bool => "RxBoolean"
  | int => "RxInt32"
  | long => "RxInt64"
  | double => "RxDouble"
  | string => "RxString"
  | principal => "RxPrincipal"
  | date => "RxDate"
  | datetime => "RxDateTime"
  | time => "RxTime"
  | timespan => "RxTimeSpan"
  | dynamic => "RxDynamic"
  | vector => "RxVec3"
  | label => "RxStateMachineLabel"

/-- The type of the plain value. -/
def nativeType : Scalar → String
  | bool => "bool"
  | int => "i32"
  | long => "i64"
  | double => "f64"
  | string | label => "String"
  | principal => "NtPrincipal"
  | date => "NtDate"
  | datetime => "NtDateTime"
  | time => "NtTime"
  | timespan => "NtTimeSpan"
  | dynamic => "NtDynamic"
  | vector => "NtVec3"

/-- The default of the plain value. -/
def defaultValue : Scalar → String
  | bool => "false"
  | int => "0"
  | long => "0i64"
  | double => "0.0"
  | string | label => "String::new()"
  | principal => "NtPrincipal::no_one()"
  | date => "NtDate::default()"
  | datetime => "NtDateTime::default()"
  | time => "NtTime::default()"
  | timespan => "NtTimeSpan::default()"
  | dynamic => "NtDynamic::null()"
  | vector => "NtVec3::default()"

/-- The type of the delta. -/
def deltaType : Scalar → String
  | bool => "DBoolean"
  | int => "DInt32"
  | long => "DInt64"
  | double => "DDouble"
  | string | label => "DString"
  | principal => "DPrincipal"
  | date => "DDate"
  | datetime => "DDateTime"
  | time => "DTime"
  | timespan => "DTimeSpan"
  | dynamic => "DDynamic"
  | vector => "DVec3"

/-- The expression that turns a reference to a plain value into its index key, for the scalars that
can be indexed. -/
def indexKey? (value : String) : Scalar → Option String
  | bool => some s!"i32::from(*{value})"
  | int => some s!"*{value}"
  | long => some s!"IndexHash::of_i64(*{value})"
  | string | label => some s!"IndexHash::of_str({value})"
  | principal => some s!"IndexHash::of_principal({value})"
  | date | datetime | time => some s!"{value}.to_index()"
  | double | timespan | dynamic | vector => none

theorem isSome_indexKey? (value : String) (s : Scalar) :
    (s.indexKey? value).isSome = s.isIndexable := by
  cases s <;> rfl

/-- The expression that orders two plain values, for the scalars that can be ordered. -/
def compare? (a b : String) (s : Scalar) : Option String :=
  if s.isOrderable then
    some (match s with
      | double => s!"{a}.total_cmp(&{b})"
      | _ => s!"{a}.cmp(&{b})")
  else none

end ReactiveSpace.Scalar
