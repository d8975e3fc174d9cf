import ReactiveSpace.Json.Parts
import ReactiveSpace.Schema.Node

/-!
# Reading types and structures

A type node is one flat object: its kind, the members that belong to the kind, and optionally its
position and notes; a record or message node holds the members of its structure in the same object.
Structures and their parts have fixed fields and may also be written as arrays.

Everything in a node but its own position and notes is held back until the kind is known, so all of
it has to be usable even when nobody looks at it. In a structure, members that nobody asked for are
skipped whatever they hold.
-/

namespace ReactiveSpace

open Json (Tree)
open Json.Tree (required orElse optional)

/-! ### Parts without types -/

/-- The names of a position's fields. -/
def Position.fieldNames : List String := ["line", "column", "end_line", "end_column"]

/-- Reads a position; the end is all zeros unless it is given. -/
def Position.ofTree? (t : Tree) : Option Position := do
  let parts ← t.parts? fieldNames
  let line ← required parts "line" (·.1.word?)
  let column ← required parts "column" (·.1.word?)
  let endLine ← orElse parts "end_line" 0 (·.1.word?)
  let endColumn ← orElse parts "end_column" 0 (·.1.word?)
  return ⟨line, column, endLine, endColumn⟩

/-- Reads a note. -/
def Note.ofTree? (t : Tree) : Option Note := do
  let parts ← t.parts? ["name", "value"]
  let name ← required parts "name" (·.1.string?)
  let value ← optional parts "value" (·.1.string?)
  return ⟨name, value⟩

/-- The names of the roles. -/
def Role.name : Role → String
  | .record => "record"
  | .message => "message"
  | .root => "root"

/-- The role of the given name. -/
def Role.ofName? : String → Option Role
  | "record" => some .record
  | "message" => some .message
  | "root" => some .root
  | _ => none

/-- Reads a role. -/
def Role.ofTree? (held : Bool) (t : Tree) : Option Role :=
  (t.constant? held).bind Role.ofName?

/-- Reads a scalar. -/
def Scalar.ofTree? (held : Bool) (t : Tree) : Option Scalar :=
  (t.constant? held).bind Scalar.ofName?

/-- Reads a privacy. -/
def Privacy.ofTree? (held : Bool) : Tree → Option Privacy
  | .object [("viewer_is", .string field)] => some (.viewerIs field)
  | .object [("use_custom", .string rule)] => some (.useCustom rule)
  | t => (t.constant? held).bind fun
    | "public" => some .everyone
    | "private" => some .nobody
    | _ => none

/-- Reads an index. -/
def Index.ofTree? (t : Tree) : Option Index := do
  let parts ← t.parts? ["field", "span"]
  let field ← required parts "field" (·.1.string?)
  let position ← orElse parts "span" {} (Position.ofTree? ·.1)
  return ⟨field, position⟩

/-- Reads a rule. -/
def Rule.ofTree? (t : Tree) : Option Rule := do
  let parts ← t.parts? ["name", "body", "span"]
  let name ← required parts "name" (·.1.string?)
  let body ← required parts "body" (·.1.string?)
  let position ← orElse parts "span" {} (Position.ofTree? ·.1)
  return ⟨name, body, position⟩

/-! ### Kinds -/

/-- The names of the kinds, in order. -/
def Kind.names : List String :=
  ["scalar", "text", "replication_status", "list", "map", "maybe", "table", "holder", "projection",
   "lazy", "record", "message", "ref"]

/-- Reads the name of a kind, which may also be given by its place in the list. -/
def Kind.nameOfTree? : Tree → Option String
  | .string s => if Kind.names.contains s then some s else none
  | .number (.integer n) => if 0 ≤ n then Kind.names[n.toNat]? else none
  | _ => none

/-- The names of a structure's fields. -/
def Structure.fieldNames : List String :=
  ["name", "specialization", "fields", "indices", "methods", "policies", "span"]

/-- The names of the members that belong to a kind. -/
def Kind.memberNames (kind : String) : List String :=
  match kind with
  | "scalar" => ["scalar"]
  | "replication_status" => ["service", "method"]
  | "list" => ["element"]
  | "map" => ["domain", "range"]
  | "maybe" => ["inner"]
  | "table" => ["record"]
  | "holder" => ["message"]
  | "projection" => ["table", "field"]
  | "lazy" => ["computed", "cached", "formula"]
  | "record" => Structure.fieldNames
  | "message" => Structure.fieldNames
  | "ref" => ["name"]
  | _ => []

/-- Whether all that a node holds back is usable. -/
def Node.heldUsable {t : Tree} (members : List (String × Tree.Part t)) : Bool :=
  members.all fun m => m.1 == "position" || m.1 == "annotations" || m.2.1.isUsable

/-! ### Types and structures -/

mutual

/-- Reads a type. -/
def Node.ofTree? (t : Tree) : Option Node := do
  let members ← t.members?
  if Node.heldUsable members then
    let own ← Tree.known? ["position", "annotations", "kind"] members
    let position ← orElse own "position" {} (Position.ofTree? ·.1)
    let notes ← orElse own "annotations" [] (·.1.listOf? Note.ofTree?)
    let kind ← required own "kind" (Kind.nameOfTree? ·.1)
    let parts ← Tree.known? (Kind.memberNames kind) members
    let kind ← Kind.ofParts? t kind parts
    return ⟨position, notes, kind⟩
  else none
termination_by (sizeOf t, 2)

/-- Reads the members that belong to a kind. -/
def Kind.ofParts? (t : Tree) (kind : String) (parts : List (String × Tree.Part t)) :
    Option (Kind Node) := do
  match kind with
  | "scalar" => return .scalar (← required parts "scalar" (Scalar.ofTree? true ·.1))
  | "text" => return .text
  | "replication_status" =>
    let service ← required parts "service" (·.1.string?)
    let method ← required parts "method" (·.1.string?)
    return .replication service method
  | "list" => return .list (← required parts "element" fun ⟨s, _⟩ => Node.ofTree? s)
  | "map" =>
    let domain ← required parts "domain" fun ⟨s, _⟩ => Node.ofTree? s
    let range ← required parts "range" fun ⟨s, _⟩ => Node.ofTree? s
    return .map domain range
  | "maybe" => return .maybe (← required parts "inner" fun ⟨s, _⟩ => Node.ofTree? s)
  | "table" => return .table (← required parts "record" (·.1.string?))
  | "holder" => return .holder (← required parts "message" (·.1.string?))
  | "projection" =>
    let table ← required parts "table" (·.1.string?)
    let field ← required parts "field" (·.1.string?)
    return .projection table field
  | "lazy" =>
    let computed ← required parts "computed" fun ⟨s, _⟩ => Node.ofTree? s
    let cached ← orElse parts "cached" false (·.1.bool?)
    let formula ← required parts "formula" (·.1.string?)
    return .lazy computed formula cached
  | "record" => return .record (← Structure.ofParts? t true parts)
  | "message" => return .message (← Structure.ofParts? t true parts)
  | "ref" => return .ref (← required parts "name" (·.1.string?))
  | _ => none
termination_by (sizeOf t, 1)

/-- Reads the fields of a structure. -/
def Structure.ofParts? (t : Tree) (held : Bool) (parts : List (String × Tree.Part t)) :
    Option (Structure Node) := do
  let name ← required parts "name" (·.1.string?)
  let role ← orElse parts "specialization" .record (Role.ofTree? held ·.1)
  let fields ← orElse parts "fields" [] fun ⟨s, _⟩ =>
    s.items?.bind fun items => items.mapM fun ⟨item, _⟩ => Field.ofTree? held item
  let indices ← orElse parts "indices" [] (·.1.listOf? Index.ofTree?)
  let methods ← orElse parts "methods" [] fun ⟨s, _⟩ =>
    s.items?.bind fun items => items.mapM fun ⟨item, _⟩ => Method.ofTree? item
  let rules ← orElse parts "policies" [] (·.1.listOf? Rule.ofTree?)
  let position ← orElse parts "span" {} (Position.ofTree? ·.1)
  return ⟨name, role, fields, indices, methods, rules, position⟩
termination_by (sizeOf t, 0)

/-- Reads a field. -/
def Field.ofTree? (held : Bool) (t : Tree) : Option (Field Node) := do
  let parts ← t.parts? ["name", "type", "policy", "readonly", "default_value", "span"]
  let name ← required parts "name" (·.1.string?)
  let type ← required parts "type" fun ⟨s, _⟩ => Node.ofTree? s
  let privacy ← optional parts "policy" (Privacy.ofTree? held ·.1)
  let readonly ← orElse parts "readonly" false (·.1.bool?)
  let initial ← optional parts "default_value" (·.1.string?)
  let position ← orElse parts "span" {} (Position.ofTree? ·.1)
  return ⟨name, type, privacy, readonly, initial, position⟩
termination_by (sizeOf t, 0)

/-- Reads a method. -/
def Method.ofTree? (t : Tree) : Option (Method Node) := do
  let parts ← t.parts? ["name", "params", "returns", "readonly", "body", "span"]
  let name ← required parts "name" (·.1.string?)
  let parameters ← orElse parts "params" [] fun ⟨s, _⟩ =>
    s.items?.bind fun items => items.mapM fun ⟨item, _⟩ => Parameter.ofTree? item
  let returns ← optional parts "returns" fun ⟨s, _⟩ => Node.ofTree? s
  let readonly ← orElse parts "readonly" false (·.1.bool?)
  let body ← required parts "body" (·.1.string?)
  let position ← orElse parts "span" {} (Position.ofTree? ·.1)
  return ⟨name, parameters, returns, readonly, body, position⟩
termination_by (sizeOf t, 0)

/-- Reads a parameter. -/
def Parameter.ofTree? (t : Tree) : Option (Parameter Node) := do
  let parts ← t.parts? ["name", "type"]
  let name ← required parts "name" (·.1.string?)
  let type ← required parts "type" fun ⟨s, _⟩ => Node.ofTree? s
  return ⟨name, type⟩
termination_by (sizeOf t, 0)

end

/-- Reads a structure. -/
def Structure.ofTree? (t : Tree) : Option (Structure Node) := do
  let parts ← t.parts? Structure.fieldNames
  Structure.ofParts? t false parts

/-- Reads a type from text. -/
def Node.ofText? (text : String) : Option Node :=
  (Tree.ofText? text).bind Node.ofTree?

/-- Reads a structure from text. -/
def Structure.ofText? (text : String) : Option (Structure Node) :=
  (Tree.ofText? text).bind Structure.ofTree?

end ReactiveSpace
