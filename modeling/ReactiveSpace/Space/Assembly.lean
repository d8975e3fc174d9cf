import ReactiveSpace.Space.Declarations

/-!
# Assembling declarations

Declarations can be put together step by step instead of being read. Fields, indices, methods,
rules, records, messages and tests go to the end of their lists. Aliases, settings and services are
named, so a name that is already there keeps its place and takes the new value.
-/

namespace ReactiveSpace

namespace Structure

/-- A structure without fields. -/
def ofRole (role : Role) (name : String) : Structure Node :=
  { name := name, role := role }

/-- Adds a field. -/
def addField (s : Structure Node) (f : Field Node) : Structure Node :=
  { s with fields := s.fields ++ [f] }

/-- Adds an index on the field of the given name. -/
def addIndex (s : Structure Node) (field : String) : Structure Node :=
  { s with indices := s.indices ++ [{ field := field }] }

/-- Adds a method. -/
def addMethod (s : Structure Node) (m : Method Node) : Structure Node :=
  { s with methods := s.methods ++ [m] }

/-- Adds a rule of visibility. -/
def addRule (s : Structure Node) (name body : String) : Structure Node :=
  { s with rules := s.rules ++ [{ name := name, body := body }] }

/-- The structure at another position. -/
def moveTo (position : Position) (s : Structure Node) : Structure Node :=
  { s with position := position }

end Structure

/-- Adds a parameter. -/
def Method.addParameter (m : Method Node) (name : String) (type : Node) : Method Node :=
  { m with parameters := m.parameters ++ [⟨name, type⟩] }

namespace Surface

/-- Sets one value of the static configuration. -/
def setConfig (s : Surface) (key : String) (value : Json) : Surface :=
  { s with config := Keyed.insert key value s.config }

/-- Sets the properties of a service. -/
def setService (s : Surface) (name : String) (properties : List (String × String)) : Surface :=
  { s with services := Keyed.insert name properties s.services }

/-- Adds a test. -/
def addTest (s : Surface) (name body : String) : Surface :=
  { s with tests := s.tests ++ [⟨name, body⟩] }

end Surface

namespace Declarations

/-- Adds a record. -/
def addRecord (d : Declarations) (s : Structure Node) : Declarations :=
  { d with records := d.records ++ [s] }

/-- Adds a message. -/
def addMessage (d : Declarations) (s : Structure Node) : Declarations :=
  { d with messages := d.messages ++ [s] }

/-- Sets what a name stands for. -/
def setAlias (d : Declarations) (name : String) (node : Node) : Declarations :=
  { d with aliases := Keyed.insert name node d.aliases }

/-- Replaces the root. -/
def setRoot (d : Declarations) (s : Structure Node) : Declarations :=
  { d with root := s }

/-- Changes the surface of the document. -/
def mapSurface (d : Declarations) (f : Surface → Surface) : Declarations :=
  { d with surface := f d.surface }

end Declarations

end ReactiveSpace
