import ReactiveSpace.Schema.Decode

/-!
# Writing types and structures

Fields are written in the order of their declaration. Empty lists of indices, methods, rules and
notes are left out, and so is what is absent; all else is written, defaults included. A node is
written as its position, its notes, its kind and then the members that belong to the kind.
-/

namespace ReactiveSpace

/-- A position as a value. -/
def Position.toJson (p : Position) : Json :=
  .object [("line", .ofNat p.line.toNat), ("column", .ofNat p.column.toNat),
    ("end_line", .ofNat p.endLine.toNat), ("end_column", .ofNat p.endColumn.toNat)]

/-- A member that is left out when there is no value. -/
def Json.optionalMember (name : String) : Option Json → List (String × Json)
  | some v => [(name, v)]
  | none => []

/-- A member that is left out when the list is empty. -/
def Json.listMember (name : String) : List Json → List (String × Json)
  | [] => []
  | vs => [(name, .array vs)]

/-- A note as a value. -/
def Note.toJson (n : Note) : Json :=
  .object (("name", .string n.name) :: Json.optionalMember "value" (n.value.map .string))

/-- A privacy as a value. -/
def Privacy.toJson : Privacy → Json
  | .everyone => .string "public"
  | .nobody => .string "private"
  | .viewerIs field => .object [("viewer_is", .string field)]
  | .useCustom rule => .object [("use_custom", .string rule)]

/-- An index as a value. -/
def Index.toJson (i : Index) : Json :=
  .object [("field", .string i.field), ("span", i.position.toJson)]

/-- A rule as a value. -/
def Rule.toJson (r : Rule) : Json :=
  .object [("name", .string r.name), ("body", .string r.body), ("span", r.position.toJson)]

mutual

/-- A type as a value. -/
def Node.toJson : Node → Json
  | ⟨position, notes, kind⟩ =>
    .object (("position", position.toJson) ::
      (Json.listMember "annotations" (notes.map Note.toJson) ++ Kind.members kind))

/-- The name of a kind and the members that belong to it. -/
def Kind.members : Kind Node → List (String × Json)
  | .scalar s => [("kind", .string "scalar"), ("scalar", .string s.name)]
  | .text => [("kind", .string "text")]
  | .replication service method =>
    [("kind", .string "replication_status"), ("service", .string service),
      ("method", .string method)]
  | .list element => [("kind", .string "list"), ("element", Node.toJson element)]
  | .map domain range =>
    [("kind", .string "map"), ("domain", Node.toJson domain), ("range", Node.toJson range)]
  | .maybe inner => [("kind", .string "maybe"), ("inner", Node.toJson inner)]
  | .table record => [("kind", .string "table"), ("record", .string record)]
  | .holder message => [("kind", .string "holder"), ("message", .string message)]
  | .projection table field =>
    [("kind", .string "projection"), ("table", .string table), ("field", .string field)]
  | .lazy computed formula cached =>
    [("kind", .string "lazy"), ("computed", Node.toJson computed), ("cached", .bool cached),
      ("formula", .string formula)]
  | .record s => ("kind", .string "record") :: Structure.members s
  | .message s => ("kind", .string "message") :: Structure.members s
  | .ref name => [("kind", .string "ref"), ("name", .string name)]

/-- The members of a structure. -/
def Structure.members : Structure Node → List (String × Json)
  | ⟨name, role, fields, indices, methods, rules, position⟩ =>
    [("name", .string name), ("specialization", .string role.name),
      ("fields", .array (Field.listToJson fields))] ++
      Json.listMember "indices" (indices.map Index.toJson) ++
      Json.listMember "methods" (Method.listToJson methods) ++
      Json.listMember "policies" (rules.map Rule.toJson) ++
      [("span", position.toJson)]

/-- Fields as values. -/
def Field.listToJson : List (Field Node) → List Json
  | [] => []
  | ⟨name, type, privacy, readonly, initial, position⟩ :: fs =>
    .object ([("name", .string name), ("type", Node.toJson type)] ++
      Json.optionalMember "policy" (privacy.map Privacy.toJson) ++
      [("readonly", .bool readonly)] ++
      Json.optionalMember "default_value" (initial.map .string) ++
      [("span", position.toJson)]) :: Field.listToJson fs

/-- Methods as values. -/
def Method.listToJson : List (Method Node) → List Json
  | [] => []
  | ⟨name, parameters, returns, readonly, body, position⟩ :: ms =>
    .object ([("name", .string name), ("params", .array (Parameter.listToJson parameters))] ++
      Method.resultMember returns ++
      [("readonly", .bool readonly), ("body", .string body), ("span", position.toJson)]) ::
        Method.listToJson ms

/-- Parameters as values. -/
def Parameter.listToJson : List (Parameter Node) → List Json
  | [] => []
  | ⟨name, type⟩ :: ps =>
    .object [("name", .string name), ("type", Node.toJson type)] :: Parameter.listToJson ps

/-- The result type of a method as a member. -/
def Method.resultMember : Option Node → List (String × Json)
  | some type => [("returns", Node.toJson type)]
  | none => []

end

/-- A structure as a value. -/
def Structure.toJson (s : Structure Node) : Json :=
  .object (Structure.members s)

end ReactiveSpace
