import ReactiveSpace.Json.Value

/-!
# Settings

A unit reports its static configuration as the text of an object. Every value that holds no `null`
becomes a `Setting`; a value that does is left out and disturbs no other. The settings that the host
knows are taken from this map one by one: a name that is missing, or holds a value of another kind,
counts as its default.
-/

namespace ReactiveSpace

/-- A value of the configuration. -/
inductive Setting where
  | bool (value : Bool)
  /-- An integer of 32 bits. -/
  | int (value : Int)
  /-- An integer of 64 bits that 32 do not hold. -/
  | long (value : Int)
  | double (value : Double)
  | text (value : String)
  | list (items : List Setting)
  | map (entries : List (String × Setting))
deriving Inhabited

namespace Setting

/-- Whether an integer fits a word of the given number of bits, one of them for the sign. -/
def fits (bits : Nat) (n : Int) : Bool :=
  -(Nat.pow 2 (bits - 1) : Int) ≤ n && n < (Nat.pow 2 (bits - 1) : Int)

/-- The setting of an integer: the narrowest kind that holds it, and a double when none does. -/
def ofInt (n : Int) : Setting :=
  if fits 32 n then .int n
  else if fits 64 n then .long n
  else .double (Double.ofInt n)

mutual

/-- The setting that a value stands for, if there is no `null` in it. -/
def ofJson? : Json → Option Setting
  | .null => none
  | .bool b => some (.bool b)
  | .number (.integer n) => some (ofInt n)
  | .number (.double d) => some (.double d)
  | .string s => some (.text s)
  | .array items => (ofItems? items).map .list
  | .object members => (ofMembers? members).map .map

/-- The settings of the items of an array. -/
def ofItems? : List Json → Option (List Setting)
  | [] => some []
  | v :: vs =>
    match ofJson? v, ofItems? vs with
    | some s, some ss => some (s :: ss)
    | _, _ => none

/-- The settings of the members of an object. -/
def ofMembers? : List (String × Json) → Option (List (String × Setting))
  | [] => some []
  | (name, v) :: vs =>
    match ofJson? v, ofMembers? vs with
    | some s, some ss => some ((name, s) :: ss)
    | _, _ => none

end

/-- The integer of a setting that fits 32 bits. -/
def int? : Setting → Option Int
  | .int n => some n
  | .long n => if fits 32 n then some n else none
  | _ => none

/-- The integer of a setting that fits 64 bits. -/
def long? : Setting → Option Int
  | .int n => some n
  | .long n => some n
  | _ => none

/-- The truth of a setting. -/
def bool? : Setting → Option Bool
  | .bool b => some b
  | _ => none

end Setting

/-- The settings that the host knows. -/
structure Settings where
  maximumHistory : Int := 1000
  deleteOnClose : Bool := false
  readonly : Bool := false
  /-- The milliseconds between two ticks, when there are any. -/
  frequency : Int := 0
  /-- Milliseconds. -/
  temporalResolution : Int := 0
  sweepExportDelay : Int := 0
deriving DecidableEq, Inhabited

namespace Settings

/-- The setting under a name, seen by `view`, or a default. -/
def getD {α : Type} (map : List (String × Setting)) (name : String) (view : Setting → Option α)
    (default : α) : α :=
  ((Keyed.get? name map).bind view).getD default

/-- The known settings of a map. -/
def ofMap (map : List (String × Setting)) : Settings where
  maximumHistory := getD map "maximum_history" Setting.int? 1000
  deleteOnClose := getD map "delete_on_close" Setting.bool? false
  readonly := getD map "readonly" Setting.bool? false
  frequency := getD map "frequency" Setting.int? 0
  temporalResolution := getD map "temporal_resolution_ms" Setting.int? 0
  sweepExportDelay := getD map "sweep_export_delay" Setting.long? 0

/-- The settings of the members of an object, without those that hold a `null`. -/
def mapOfMembers (members : List (String × Json)) : List (String × Setting) :=
  members.filterMap fun (name, v) => (Setting.ofJson? v).map fun s => (name, s)

/-- All settings of the text of an object; there are none in any other text. -/
def mapOfText (text : String) : List (String × Setting) :=
  match Json.ofText? text with
  | some (.object members) => mapOfMembers members
  | _ => []

/-- The known settings of a text. -/
def ofText (text : String) : Settings :=
  ofMap (mapOfText text)

/-- The milliseconds between two ticks of a document that runs by itself. -/
def tick? (s : Settings) : Option Int :=
  if 0 < s.frequency then some s.frequency else none

end Settings

end ReactiveSpace
