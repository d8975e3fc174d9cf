import ReactiveSpace.Check.Diagnostic

/-!
# Resolving nodes

References, tables, holders and projections name something else, and what they name depends on the
table of types and, for a projection, on the structure around it. `Node.resolution?` says what a
node stands for at its site. It depends on nothing else: the same node at the same site always
resolves to the same thing.
-/

namespace ReactiveSpace

/-- Where a node stands. -/
inductive Site where
  /-- Outside the declarations, where only references resolve. -/
  | outside
  /-- In the declarations, inside the given structure or directly in the table. -/
  | declared (scope : Option (Structure Node))

/-- The outcome of resolving a node: what it stands for, or the problem with it. There is no problem
to report when another node is to blame for the failure. -/
abbrev Outcome : Type := Except (Option Problem) Resolution

/-- The problems of an outcome. -/
def Outcome.problems : Outcome → List Problem
  | .error (some p) => [p]
  | _ => []

/-- The resolution of an outcome. -/
def Outcome.resolution? : Outcome → Option Resolution
  | .ok r => some r
  | .error _ => none

namespace Table

/-- What a table of the rows `record` stands for. -/
def resolveTable (t : Table) (record : String) : Outcome :=
  match t.resolve record with
  | .error e => .error (some (.unresolved e))
  | .ok r =>
    match t.target? r with
    | none => .error none
    | some target =>
      match target.kind with
      | .record s => .ok (.record s.name)
      | .message _ => .error (some (.tableOfMessage record))
      | _ => .error (some (.tableOfOther target.describe))

/-- What a holder of `message` stands for. -/
def resolveHolder (t : Table) (message : String) : Outcome :=
  match t.resolve message with
  | .error e => .error (some (.unresolved e))
  | .ok r =>
    match t.target? r with
    | none => .error none
    | some target =>
      match target.kind with
      | .message s => .ok (.message s.name)
      | _ => .error (some (.holderNotMessage message target.describe))

/-- The structure of the record that a name stands for. -/
def followRecord? (t : Table) (name : String) : Option (Structure Node) :=
  (t.followName? name).bind Node.record?

/-- The record named by the table that a type comes down to. -/
def tableRecord? (t : Table) (n : Node) : Option String :=
  match (t.follow? n).map Node.kind with
  | some (.table record) => some record
  | _ => none

/-- The key type that a type comes down to. -/
def domainOf? (t : Table) (n : Node) : Option Scalar :=
  (t.scalarOf? n).filter Scalar.isMapDomain

/-- What the projection of `table` by `field` stands for in a structure. A table variable without a
record is the table's own problem. -/
def resolveProjection (t : Table) (scope : Option (Structure Node)) (table field : String) :
    Outcome :=
  match scope with
  | none => .error (some (.projectionOutside table field))
  | some owner =>
    match owner.field? table with
    | none => .error (some (.tableVariableNotFound table owner.name))
    | some variable_ =>
      match t.tableRecord? variable_.type with
      | none => .error (some (.notTableVariable table))
      | some name =>
        match t.followRecord? name with
        | none => .error none
        | some record =>
          match record.field? field with
          | none => .error (some (.projectedNotFound field record.name table))
          | some projected =>
            match t.domainOf? projected.type with
            | some domain => .ok (.projection table record.name domain)
            | none => .error (some (.badProjected field projected.type.describe))

end Table

/-- What a node stands for at its site. -/
def Node.resolution? (t : Table) (site : Site) (n : Node) : Option Resolution :=
  match site with
  | .outside => none
  | .declared scope =>
    match n.kind with
    | .ref name => (t.resolve name).toOption
    | .table record => (t.resolveTable record).resolution?
    | .holder message => (t.resolveHolder message).resolution?
    | .projection table field => (t.resolveProjection scope table field).resolution?
    | _ => none

end ReactiveSpace
