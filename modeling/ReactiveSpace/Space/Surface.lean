import ReactiveSpace.Schema.Encode

/-!
# The surface of a document

What a space declares about its document outside the root structure: who may create it, its static
configuration, the services it talks to, what its construction does and the tests it carries. The
bodies are target source.
-/

namespace ReactiveSpace

open Json (Tree)
open Json.Tree (required orElse optional)

/-- The bodies of the three static predicates. A predicate without a body denies. -/
structure Predicates where
  canCreate : Option String := none
  canInvent : Option String := none
  canSendWhileDisconnected : Option String := none
deriving DecidableEq, Inhabited

/-- A test that the document carries. -/
structure Test where
  name : String
  body : String
deriving DecidableEq, Inhabited

/-- The declarations about a document outside its root structure. -/
structure Surface where
  predicates : Predicates := {}
  /-- The static configuration. -/
  config : List (String × Json) := []
  /-- The properties of each service. -/
  services : List (String × List (String × String)) := []
  /-- What runs when the document is constructed. -/
  constructor : Option String := none
  tests : List Test := []
deriving Inhabited

/-- A client of a service, by the service's name and the class that implements it. -/
structure Client where
  service : String
  clientClass : String
deriving DecidableEq, Inhabited

namespace Client

/-- The class of a client whose service names none. -/
def genericClass : String := "generic"

/-- A client as a value. -/
def toJson (c : Client) : Json :=
  .object [("service", .string c.service), ("class", .string c.clientClass)]

end Client

namespace Surface

/-- One client for each service, of the class that the service's properties name. -/
def clients (s : Surface) : List Client :=
  s.services.map fun (service, properties) =>
    ⟨service, (Keyed.get? "class" properties).getD Client.genericClass⟩

/-- The clients as a value. -/
def clientsJson (s : Surface) : Json :=
  .array (s.clients.map Client.toJson)

/-- The services as a value. -/
def servicesJson (s : Surface) : Json :=
  .object (s.services.map fun (service, properties) =>
    (service, .object (properties.map fun (name, value) => (name, .string value))))

/-- The configuration as a value. -/
def configJson (s : Surface) : Json :=
  .object s.config

/-- The names of the tests as a value. -/
def testsJson (s : Surface) : Json :=
  .array (s.tests.map fun t => .string t.name)

/-- Whether two surfaces are the same. The order of maps does not matter. -/
def same (a b : Surface) : Bool :=
  a.predicates == b.predicates && (Json.object a.config).same (.object b.config) &&
    Keyed.sameBy (Keyed.sameBy (· == ·)) a.services b.services &&
    a.constructor == b.constructor && a.tests == b.tests

end Surface

/-! ### Writing -/

/-- The predicates as a value. -/
def Predicates.toJson (p : Predicates) : Json :=
  .object (Json.optionalMember "can_create" (p.canCreate.map .string) ++
    Json.optionalMember "can_invent" (p.canInvent.map .string) ++
    Json.optionalMember "can_send_while_disconnected" (p.canSendWhileDisconnected.map .string))

/-- A test as a value. -/
def Test.toJson (t : Test) : Json :=
  .object [("name", .string t.name), ("body", .string t.body)]

/-- A surface as a value. -/
def Surface.toJson (s : Surface) : Json :=
  .object ([("policies", s.predicates.toJson), ("config", s.configJson),
      ("services", s.servicesJson)] ++
    Json.optionalMember "constructor" (s.constructor.map .string) ++
    [("tests", .array (s.tests.map Test.toJson))])

/-! ### Reading -/

/-- Reads predicates. -/
def Predicates.ofTree? (t : Tree) : Option Predicates := do
  let parts ← t.parts? ["can_create", "can_invent", "can_send_while_disconnected"]
  let canCreate ← optional parts "can_create" (·.1.string?)
  let canInvent ← optional parts "can_invent" (·.1.string?)
  let canSend ← optional parts "can_send_while_disconnected" (·.1.string?)
  return ⟨canCreate, canInvent, canSend⟩

/-- Reads a test. -/
def Test.ofTree? (t : Tree) : Option Test := do
  let parts ← t.parts? ["name", "body"]
  let name ← required parts "name" (·.1.string?)
  let body ← required parts "body" (·.1.string?)
  return ⟨name, body⟩

/-- Reads a surface. -/
def Surface.ofTree? (t : Tree) : Option Surface := do
  let parts ← t.parts? ["policies", "config", "services", "constructor", "tests"]
  let predicates ← orElse parts "policies" {} (Predicates.ofTree? ·.1)
  let config ← orElse parts "config" [] (·.1.mapOf? Json.ofTree?)
  let services ← orElse parts "services" [] (·.1.mapOf? (Tree.mapOf? Tree.string?))
  let constructor ← optional parts "constructor" (·.1.string?)
  let tests ← orElse parts "tests" [] (·.1.listOf? Test.ofTree?)
  return ⟨predicates, config, services, constructor, tests⟩

end ReactiveSpace
