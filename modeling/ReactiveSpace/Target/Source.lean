import ReactiveSpace.Check.Checked
import ReactiveSpace.Target.Document
import ReactiveSpace.Target.Exports
import ReactiveSpace.Target.Message
import ReactiveSpace.Target.Record

/-!
# The source of a unit

A deployable space becomes one source file: a header, its messages, its records with those that
others depend on first, the document and the exports. Nothing is generated for a space that is not
deployable or under a name that can not name a unit.
-/

namespace ReactiveSpace.Target

/-- Why no source was generated. -/
inductive SourceError where
  /-- The space has this many diagnostics. -/
  | notDeployable (count : Nat)
  | invalidUnitName (name : String)
deriving DecidableEq

/-- The error in words. -/
def SourceError.message : SourceError → String
  | .notDeployable count =>
    "space has " ++ Decimal.digitText count ++ " type error(s) and can not be generated"
  | .invalidUnitName name => s!"invalid unit name '{name}'"

/-- The header of a unit. -/
def header (unitName : String) : List Code :=
  [.line ("// Generated by livedoc for unit '" ++ unitName ++ "'. Do not edit."),
    .line "#![allow(unused, non_snake_case, non_camel_case_types, clippy::all)]",
    .blank,
    .line "use livedoc_runtime::prelude::*;",
    .blank]

/-- The records of a table in the order of their source: those that others depend on first. -/
def orderedRecords (t : Table) : List (Structure Node) :=
  t.dependencies.ordering.filterMap fun name =>
    (t.structure? name).filter fun s => s.role == .record

/-- The source of a unit, as a tree. -/
def unitCode (t : Table) (surface : Surface) (unitName : String) : List Code :=
  header unitName ++
    t.messages.flatMap (fun s => message t s ++ [.blank]) ++
    (orderedRecords t).flatMap (fun s => record t s ++ [.blank]) ++
    document t surface ++ [.blank] ++
    exports unitName surface

/-- The source of the unit of a checked space. -/
def unitSource (c : Checked) (surface : Surface) (unitName : String) :
    Except SourceError String :=
  if !c.isDeployable then .error (.notDeployable c.diagnostics.length)
  else if !Name.isUnitName unitName then .error (.invalidUnitName unitName)
  else .ok (Code.source (unitCode c.table surface unitName))

end ReactiveSpace.Target
