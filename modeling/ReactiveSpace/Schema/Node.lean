import ReactiveSpace.Schema.Position
import ReactiveSpace.Schema.Scalar

/-!
# Type nodes and structures

A `Node` describes the type of a field: a `Kind` together with its position and notes. Records,
messages and the document root are `Structure`s, ordered lists of fields with their indices,
methods and rules. A record or message node holds its structure, and the fields of a structure are
nodes, so the parts of a structure take the type of nodes as a parameter and `Node` ties the knot.
-/

namespace ReactiveSpace

/-- What a structure is used for. -/
inductive Role where
  | record
  | message
  /-- The document itself. -/
  | root
deriving DecidableEq, Inhabited

/-- Who may observe a field. -/
inductive Privacy where
  | everyone
  | nobody
  /-- The principal that the named field holds. -/
  | viewerIs (field : String)
  /-- Whoever the named rule admits. -/
  | useCustom (rule : String)
deriving DecidableEq, Inhabited

/-- A remark of the user on a type, copied into the reflection. -/
structure Note where
  name : String
  value : Option String := none
deriving DecidableEq, Inhabited

/-- A field of a structure. -/
structure Field (T : Type) where
  name : String
  type : T
  /-- The stated privacy; a field is for nobody when none is stated. -/
  privacy : Option Privacy := none
  readonly : Bool := false
  /-- An expression of the target source for the initial value. -/
  initial : Option String := none
  position : Position := {}

/-- A request to index the rows of a table by a field. -/
structure Index where
  field : String
  position : Position := {}
deriving DecidableEq, Inhabited

/-- A parameter of a method. -/
structure Parameter (T : Type) where
  name : String
  type : T

/-- A method of a structure. Its body is target source. -/
structure Method (T : Type) where
  name : String
  parameters : List (Parameter T) := []
  returns : Option T := none
  /-- Whether the method leaves the structure as it is. -/
  readonly : Bool := false
  body : String
  position : Position := {}

/-- A rule of visibility. Its body is target source that decides about one viewer. -/
structure Rule where
  name : String
  body : String
  position : Position := {}
deriving DecidableEq, Inhabited

/-- An ordered collection of fields with what belongs to them. -/
structure Structure (T : Type) where
  name : String
  role : Role := .record
  fields : List (Field T) := []
  indices : List Index := []
  methods : List (Method T) := []
  rules : List Rule := []
  position : Position := {}

/-- The kinds of type. -/
inductive Kind (T : Type) where
  | scalar (scalar : Scalar)
  /-- Text that several people edit. -/
  | text
  /-- How far a value has been sent to a method of a remote service. -/
  | replication (service method : String)
  | list (element : T)
  | map (domain range : T)
  | maybe (inner : T)
  /-- Rows of one record. -/
  | table (record : String)
  /-- A cell with the value of one message. -/
  | holder (message : String)
  /-- The rows of a table variable of the same structure, grouped by one of their fields. -/
  | projection (table field : String)
  /-- A value computed by a formula of target source. -/
  | lazy (computed : T) (formula : String) (cached : Bool)
  | record (s : Structure T)
  | message (s : Structure T)
  /-- The type declared under a name. -/
  | ref (name : String)

/-- A type as it is written. -/
structure Node where
  position : Position := {}
  notes : List Note := []
  kind : Kind Node

/-! ### Parts of structures -/

namespace Structure

/-- The name of the document root. -/
def rootName : String := "LivingDocument"

/-- The document root without fields. -/
def emptyRoot : Structure Node :=
  { name := rootName, role := .root }

/-- The first field of the given name. -/
def field? {T : Type} (s : Structure T) (name : String) : Option (Field T) :=
  s.fields.find? fun f => f.name == name

end Structure

instance : Inhabited (Structure Node) := ⟨Structure.emptyRoot⟩

namespace Privacy

/-- The privacy as reflections and diagnostics print it. -/
def text : Privacy → String
  | .everyone => "public"
  | .nobody => "private"
  | .viewerIs field => s!"viewer_is<{field}>"
  | .useCustom rule => s!"use_custom<{rule}>"

end Privacy

namespace Field

/-- The privacy in effect: nobody may observe a field that states none. -/
def effectivePrivacy {T : Type} (f : Field T) : Privacy :=
  f.privacy.getD .nobody

end Field

/-! ### Nodes -/

namespace Node

/-- A node without position and notes. -/
def ofKind (kind : Kind Node) : Node :=
  { kind := kind }

instance : Inhabited Node := ⟨ofKind .text⟩

/-- The node at another position. -/
def moveTo (position : Position) (n : Node) : Node :=
  { n with position := position }

/-- The node with one more note. -/
def noted (note : Note) (n : Node) : Node :=
  { n with notes := n.notes ++ [note] }

/-- The node of a scalar. -/
def ofScalar (s : Scalar) : Node :=
  ofKind (.scalar s)

/-- The node of a record, at the position of its structure. -/
def ofRecord (s : Structure Node) : Node :=
  { position := s.position, kind := .record s }

/-- The node of a message, at the position of its structure. -/
def ofMessage (s : Structure Node) : Node :=
  { position := s.position, kind := .message s }

/-- The type as diagnostics print it. A structure is printed by its name. -/
def describe : Node → String
  | ⟨_, _, .scalar s⟩ => s.name
  | ⟨_, _, .text⟩ => "text"
  | ⟨_, _, .replication service method⟩ => s!"replication<{service}:{method}>"
  | ⟨_, _, .list element⟩ => "list<" ++ element.describe ++ ">"
  | ⟨_, _, .map domain range⟩ => "map<" ++ domain.describe ++ "," ++ range.describe ++ ">"
  | ⟨_, _, .maybe inner⟩ => "maybe<" ++ inner.describe ++ ">"
  | ⟨_, _, .table record⟩ => s!"table<{record}>"
  | ⟨_, _, .holder message⟩ => s!"holder<{message}>"
  | ⟨_, _, .projection table field⟩ => s!"projection<{table}.{field}>"
  | ⟨_, _, .lazy computed _ _⟩ => "formula<" ++ computed.describe ++ ">"
  | ⟨_, _, .record s⟩ => s.name
  | ⟨_, _, .message s⟩ => s.name
  | ⟨_, _, .ref name⟩ => name

/-- The name of a reference. -/
def reference? (n : Node) : Option String :=
  match n.kind with
  | .ref name => some name
  | _ => none

/-- The scalar of a scalar node. -/
def scalar? (n : Node) : Option Scalar :=
  match n.kind with
  | .scalar s => some s
  | _ => none

/-- The structure of a record node. -/
def record? (n : Node) : Option (Structure Node) :=
  match n.kind with
  | .record s => some s
  | _ => none

/-- The structure of a message node. -/
def message? (n : Node) : Option (Structure Node) :=
  match n.kind with
  | .message s => some s
  | _ => none

/-- The structure of a record or message node. -/
def structure? (n : Node) : Option (Structure Node) :=
  match n.kind with
  | .record s => some s
  | .message s => some s
  | _ => none

/-- Whether the node is written as a table. -/
def isTable (n : Node) : Bool :=
  match n.kind with
  | .table _ => true
  | _ => false

/-- Whether the node is written as a projection. -/
def isProjection (n : Node) : Bool :=
  match n.kind with
  | .projection _ _ => true
  | _ => false

/-- Whether the node is a scalar that can be the domain of a map. -/
def isMapDomain (n : Node) : Bool :=
  match n.kind with
  | .scalar s => s.isMapDomain
  | _ => false

end Node

end ReactiveSpace
