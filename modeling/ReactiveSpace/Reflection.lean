import ReactiveSpace.Check.Checked

/-!
# Reflection

The reflection of a space describes its types to other tools, as an object whose order of members is
part of the format: the nature of a type comes first, then its notes if it has any, then the members
of its kind. A structure is described in full where it is defined, and elsewhere only named.
-/

namespace ReactiveSpace

/-- The site of what is declared in a structure that stands at this site. -/
def Site.inside (s : Structure Node) : Site → Site
  | .outside => .outside
  | .declared _ => .declared (some s)

namespace Reflection

/-- The members that every type shares: its nature, and its notes if there are any. -/
def header (n : Node) : List (String × Json) :=
  ("nature", .string n.nature) ::
    Json.listMember "annotations" (n.notes.map Note.toJson)

/-- The reflection of a structure that is mentioned from elsewhere. -/
def ofName (name : String) : Json :=
  .object [("nature", .string "reactive_ref"), ("ref", .string name)]

/-- The name that a table or holder stands for, or the name that is written when it stands for
nothing. -/
def resolvedName (t : Table) (site : Site) (n : Node) (written : String) : Json :=
  match n.resolution? t site with
  | some (.record name) | some (.message name) => .string name
  | _ => .string written

/-- The domain of a projection, `null` when it stands for nothing. -/
def projectionDomain (t : Table) (site : Site) (n : Node) : Json :=
  match n.resolution? t site with
  | some (.projection _ _ domain) =>
    .object [("nature", .string "reactive_value"), ("type", .string domain.name)]
  | _ => .null

/-- The reflection of a type that is mentioned from another type. -/
def mention (t : Table) (site : Site) : Node → Json
  | ⟨position, notes, .scalar s⟩ =>
    .object (header ⟨position, notes, .scalar s⟩ ++ [("type", .string s.name)])
  | ⟨position, notes, .text⟩ => .object (header ⟨position, notes, .text⟩)
  | ⟨position, notes, .replication service method⟩ =>
    .object (header ⟨position, notes, .replication service method⟩)
  | ⟨position, notes, .list element⟩ =>
    .object (header ⟨position, notes, .list element⟩ ++ [("type", mention t site element)])
  | ⟨position, notes, .map domain range⟩ =>
    .object (header ⟨position, notes, .map domain range⟩ ++
      [("domain", mention t site domain), ("range", mention t site range)])
  | ⟨position, notes, .maybe inner⟩ =>
    .object (header ⟨position, notes, .maybe inner⟩ ++ [("type", mention t site inner)])
  | ⟨position, notes, .table record⟩ =>
    let n : Node := ⟨position, notes, .table record⟩
    .object (header n ++ [("record_name", resolvedName t site n record)])
  | ⟨position, notes, .holder message⟩ =>
    let n : Node := ⟨position, notes, .holder message⟩
    .object (header n ++ [("message_name", resolvedName t site n message)])
  | ⟨position, notes, .projection table field⟩ =>
    let n : Node := ⟨position, notes, .projection table field⟩
    .object (header n ++ [("table", .string table), ("field", .string field),
      ("domain", projectionDomain t site n)])
  | ⟨position, notes, .lazy computed formula cached⟩ =>
    .object (header ⟨position, notes, .lazy computed formula cached⟩ ++
      [("type", mention t site computed)])
  | ⟨_, _, .record s⟩ => ofName s.name
  | ⟨_, _, .message s⟩ => ofName s.name
  | ⟨position, notes, .ref name⟩ =>
    .object (header ⟨position, notes, .ref name⟩ ++ [("ref", .string name)])

/-- The reflection of a structure's fields, in order: the type and privacy of each. -/
def fields (t : Table) (site : Site) (s : Structure Node) : Json :=
  .object (Keyed.ofPairs (s.fields.map fun f =>
    (f.name, .object [("type", mention t (site.inside s) f.type),
      ("privacy", .string f.effectivePrivacy.text)])))

/-- The reflection of a type where it is defined. -/
def definition (t : Table) (site : Site) (n : Node) : Json :=
  match n.structure? with
  | some s => .object (header n ++ [("name", .string s.name), ("fields", fields t site s)])
  | none => mention t site n

/-- The reflection of a space: its types in the order of their declaration, and its root. -/
def ofTable (t : Table) : Json :=
  .object [
    ("types", .object (t.entries.map fun e => (e.1, definition t (.declared none) e.2))),
    ("root", .object [("nature", .string "reactive_record"), ("name", .string t.root.name),
      ("fields", fields t (.declared none) t.root)])]

end Reflection

end ReactiveSpace
