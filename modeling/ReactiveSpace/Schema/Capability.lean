import ReactiveSpace.Schema.Node

/-!
# What a type offers

Every kind of type has a *nature*, the word that opens its reflection, and an *access*, the way
generated accessors expose a field of it. Some kinds also offer operations, settle after a
transaction, can be deleted, or wrap another type.
-/

namespace ReactiveSpace

/-- How generated accessors expose a field. -/
inductive Access where
  /-- The plain value, as it is stored. -/
  | plain
  /-- A value that a getter computes. -/
  | computed
  /-- A cell with a getter and a setter. -/
  | cell
  /-- The reactive object itself, which has operations of its own. -/
  | object
deriving DecidableEq

/-- Whether accessors may change a field of this access. -/
def Access.isMutable : Access → Bool
  | .plain | .computed => false
  | .cell | .object => true

/-- The signature of a named operation. -/
structure Operation where
  name : String
  /-- The number of arguments. -/
  arity : Nat
  /-- The result type as diagnostics print it. -/
  returns : String
  /-- Whether the operation changes its receiver. -/
  mutates : Bool
deriving DecidableEq

namespace Node

/-- The word that opens the reflection of a type. -/
def nature (n : Node) : String :=
  match n.kind with
  | .scalar _ => "reactive_value"
  | .text => "reactive_text"
  | .replication _ _ => "replication_status"
  | .list _ => "reactive_list"
  | .map _ _ => "reactive_map"
  | .maybe _ => "reactive_maybe"
  | .table _ => "reactive_table"
  | .holder _ => "reactive_holder"
  | .projection _ _ => "reactive_projection"
  | .lazy _ _ _ => "reactive_lazy"
  | .record _ => "reactive_record"
  | .message _ => "native_message"
  | .ref _ => "reactive_ref"

/-- How accessors expose a field of a type. -/
def access (n : Node) : Access :=
  match n.kind with
  | .scalar _ | .maybe _ | .holder _ => .cell
  | .replication _ _ | .lazy _ _ _ => .computed
  | .message _ => .plain
  | .text | .list _ | .map _ _ | .table _ | .projection _ _ | .record _ | .ref _ => .object

/-- The operation that a method of a record offers. -/
def methodOperation (m : Method Node) : Operation where
  name := m.name
  arity := m.parameters.length
  returns := match m.returns with
    | some type => type.describe
    | none => "void"
  mutates := !m.readonly

/-- The named operations of a type, for the kinds that have some. -/
def operations? (n : Node) : Option (List Operation) :=
  match n.kind with
  | .text => some [⟨"get", 0, "string", false⟩, ⟨"set", 1, "void", true⟩,
      ⟨"append", 1, "void", true⟩]
  | .list _ => some [⟨"size", 0, "int", false⟩, ⟨"append", 1, "void", true⟩,
      ⟨"remove", 1, "bool", true⟩, ⟨"clear", 0, "void", true⟩]
  | .map _ _ => some [⟨"size", 0, "int", false⟩, ⟨"has", 1, "bool", false⟩,
      ⟨"remove", 1, "bool", true⟩, ⟨"clear", 0, "void", true⟩]
  | .maybe _ => some [⟨"has", 0, "bool", false⟩, ⟨"delete", 0, "void", true⟩]
  | .table record => some [⟨"size", 0, "int", false⟩, ⟨"make", 0, record, true⟩,
      ⟨"delete", 0, "void", true⟩]
  | .record s => some (s.methods.map methodOperation ++ [⟨"delete", 0, "void", true⟩])
  | _ => none

/-- The first operation of the given name. -/
def operation? (n : Node) (name : String) : Option Operation :=
  n.operations?.bind fun os => os.find? fun o => o.name == name

/-- Whether values have to settle after a transaction before anyone observes them. -/
def needsSettle (n : Node) : Bool :=
  match n.kind with
  | .map _ _ | .table _ | .projection _ _ | .lazy _ _ _ | .record _ => true
  | _ => false

/-- The type that a container wraps; for a map it is the range. -/
def embedded? (n : Node) : Option Node :=
  match n.kind with
  | .list element => some element
  | .map _ range => some range
  | .maybe inner => some inner
  | .lazy computed _ _ => some computed
  | _ => none

/-- Whether a field of this type may stand in a message. Names are judged where they resolve. -/
def fitsMessage : Node → Bool
  | ⟨_, _, .scalar _⟩ => true
  | ⟨_, _, .message _⟩ => true
  | ⟨_, _, .ref _⟩ => true
  | ⟨_, _, .list element⟩ => element.fitsMessage
  | ⟨_, _, .maybe inner⟩ => inner.fitsMessage
  | _ => false

end Node

end ReactiveSpace
