import ReactiveSpace.Check.Resolve

/-!
# Resolved types

A `Shape` is a type with every name in it resolved: references are replaced by what they stand for,
structures by their names, and projections know their record and domain. Generated source depends
on a type through its shape alone. `Shape.expand` opens references; an alias that is already open is
not opened again, so the expansion of every type ends.

Only an alias that contains itself is ever cut off so. Spelled without the cut such a type has
no end (`Declarations.spelling_ends_iff`), and no unit with it is ever finished. What is said of
its shape, and of code that is generated from it, is said of the cut alone.
-/

namespace ReactiveSpace

/-- A type with its names resolved. -/
inductive Shape where
  | scalar (scalar : Scalar)
  | text
  | replication (service method : String)
  | list (element : Shape)
  | map (domain range : Shape)
  | maybe (inner : Shape)
  /-- Rows of the record of this name. -/
  | table (record : String)
  /-- A cell with the message of this name. -/
  | holder (message : String)
  /-- Rows grouped by `field`; the source is their record and the type of the keys. -/
  | projection (field : String) (source : Option (String × Scalar))
  | lazy (computed : Shape) (formula : String) (cached : Bool)
  | record (name : String)
  | message (name : String)
  /-- A name that leads to no type, or back into the alias it is part of. -/
  | unresolved (name : String)
deriving DecidableEq, Inhabited

namespace Shape

/-- The type `n` at its site, below the aliases `opened`. An alias that contains itself is cut
off where it is met again, though its spelling has no end. -/
def expand (t : Table) (opened : List String) (site : Site) (n : Node) : Shape :=
  match n with
  | ⟨_, _, .scalar s⟩ => .scalar s
  | ⟨_, _, .text⟩ => .text
  | ⟨_, _, .replication service method⟩ => .replication service method
  | ⟨_, _, .list element⟩ => .list (expand t opened site element)
  | ⟨_, _, .map domain range⟩ => .map (expand t opened site domain) (expand t opened site range)
  | ⟨_, _, .maybe inner⟩ => .maybe (expand t opened site inner)
  | ⟨position, notes, .table row⟩ =>
    match Node.resolution? t site ⟨position, notes, .table row⟩ with
    | some (.record name) => .table name
    | _ => .table row
  | ⟨position, notes, .holder held⟩ =>
    match Node.resolution? t site ⟨position, notes, .holder held⟩ with
    | some (.message name) => .holder name
    | _ => .holder held
  | ⟨position, notes, .projection rows field⟩ =>
    match Node.resolution? t site ⟨position, notes, .projection rows field⟩ with
    | some (.projection _ row domain) => .projection field (some (row, domain))
    | _ => .projection field none
  | ⟨_, _, .lazy computed formula cached⟩ => .lazy (expand t opened site computed) formula cached
  | ⟨_, _, .record s⟩ => .record s.name
  | ⟨_, _, .message s⟩ => .message s.name
  | ⟨_, _, .ref name⟩ =>
    match t.resolve name with
    | .ok (.record key) =>
      match (t.get? key).bind Node.record? with
      | some s => .record s.name
      | none => .unresolved name
    | .ok (.message key) =>
      match (t.get? key).bind Node.message? with
      | some s => .message s.name
      | none => .unresolved name
    | .ok (.aliased key) =>
      match _hg : t.get? key with
      | some target =>
        if _ho : key ∈ opened then .unresolved name
        else expand t (key :: opened) (.declared none) target
      | none => .unresolved name
    | _ => .unresolved name
termination_by ((remaining t.names opened).length, sizeOf n)
decreasing_by
  all_goals first
    | exact Prod.Lex.left _ _ (length_remaining_cons_lt _ho (Table.mem_names_of_get? _hg))
    | exact Prod.Lex.right _ (by simp; omega)

end Shape

/-- The shape of a type at its site. -/
def Node.shape (t : Table) (site : Site) (n : Node) : Shape :=
  Shape.expand t [] site n

end ReactiveSpace
