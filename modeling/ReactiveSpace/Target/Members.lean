import ReactiveSpace.Target.Spelling
import ReactiveSpace.Target.Writer

/-!
# The members of generated structures

What records and the document root have in common: storage for every field, the statements that
build and bind it, accessors that follow the access of each field, the methods and rules of the
user, and the function that settles the structure.
-/

namespace ReactiveSpace.Target

/-- The site of the fields of a declared structure. -/
def siteOf (s : Structure Node) : Site :=
  .declared (some s)

/-- The shape of a type in a declared structure. -/
def shapeIn (t : Table) (s : Structure Node) (n : Node) : Shape :=
  n.shape t (siteOf s)

/-- Whether a field holds state of its own. Formulas and projections derive theirs from other
fields. -/
def isStored (t : Table) (f : Field Node) : Bool :=
  match (f.type.concrete t).kind with
  | .lazy _ _ _ | .projection _ _ => false
  | _ => true

/-- The fields with state of their own. -/
def storedFields (t : Table) (s : Structure Node) : List (Field Node) :=
  s.fields.filter (isStored t)

/-- A member for the storage of each field. -/
def storage (t : Table) (s : Structure Node) : List Code :=
  s.fields.map fun f => .line (f.name ++ ": " ++ (shapeIn t s f.type).runtimeType ++ ",")

/-- A statement that builds the storage of each field, with its initial value if it has one. -/
def construction (t : Table) (s : Structure Node) : List Code :=
  s.fields.map fun f =>
    let built := (shapeIn t s f.type).construction "__link.clone()"
    .line (match f.initial with
      | some initial =>
        "let " ++ f.name ++ " = " ++ built ++ ".initialized(" ++ Text.trim initial ++ ");"
      | none => "let " ++ f.name ++ " = " ++ built ++ ";")

/-- The statements that run once every field is linked. -/
def bindings (s : Structure Node) : List Code :=
  s.fields.filterMap fun f => (f.type.bindCall? f.name).map .line

/-! ### Accessors -/

/-- A function with one line in its body. -/
def shortFunction (header body : String) : Code :=
  .nest header [.line body]

/-- The expression with which an accessor of `receiver` reads a field. -/
def readExpression (receiver : String) (name : String) (target : Node) : String :=
  match target.access, target.kind with
  | .computed, .lazy _ _ _ => s!"{receiver}.{name}.get({receiver})"
  | .computed, _ | .cell, _ => s!"{receiver}.{name}.get()"
  | .object, _ | .plain, _ => s!"&{receiver}.{name}"

/-- The function that reads a field. -/
def getter (t : Table) (s : Structure Node) (f : Field Node) : Code :=
  let target := f.type.concrete t
  let shape := shapeIn t s f.type
  let result := match target.access with
    | .cell | .computed => shape.nativeType
    | .object => "&" ++ shape.runtimeType
    | .plain => "&" ++ shape.nativeType
  shortFunction ("pub fn " ++ f.name ++ "(&self) -> " ++ result)
    (readExpression "self" f.name target)

/-- The function that changes a field, if there is one. -/
def setter? (t : Table) (s : Structure Node) (f : Field Node) : Option Code :=
  let target := f.type.concrete t
  let shape := shapeIn t s f.type
  if f.readonly then none
  else
    match target.access with
    | .cell =>
      some (shortFunction
        ("pub fn set_" ++ f.name ++ "(&mut self, value: " ++ shape.nativeType ++ ")")
        ("self." ++ f.name ++ ".set(value);"))
    | .object =>
      if target.isProjection then none
      else some (shortFunction
        ("pub fn " ++ f.name ++ "_mut(&mut self) -> &mut " ++ shape.runtimeType)
        ("&mut self." ++ f.name))
    | .computed | .plain => none

/-- The accessors of each field. -/
def accessors (t : Table) (s : Structure Node) : List Code :=
  s.fields.flatMap fun f =>
    getter t s f :: (match setter? t s f with
      | some code => [.blank, code, .blank]
      | none => [.blank])

/-! ### Methods, rules and settling -/

/-- The header of a method. -/
def methodHeader (t : Table) (s : Structure Node) (m : Method Node) : String :=
  let receiver := if m.readonly then "&self" else "&mut self"
  let parameters := m.parameters.map fun p =>
    p.name ++ ": " ++ (shapeIn t s p.type).nativeType
  let result := match m.returns with
    | some type => " -> " ++ (shapeIn t s type).nativeType
    | none => ""
  "pub fn " ++ m.name ++ "(" ++ ", ".intercalate (receiver :: parameters) ++ ")" ++ result

/-- The methods of the user. -/
def methods (t : Table) (s : Structure Node) : List Code :=
  s.methods.flatMap fun m => [.nest (methodHeader t s m) [.snippet m.body], .blank]

/-- The rules of visibility. -/
def rules (s : Structure Node) : List Code :=
  s.rules.flatMap fun r =>
    [.nest ("pub fn __policy_" ++ r.name ++ "(&self, __who: &NtPrincipal) -> bool")
      [.snippet r.body], .blank]

/-- The function that settles the fields that have to settle. -/
def settle (t : Table) (s : Structure Node) : Code :=
  .nest "pub fn __settle(&mut self)"
    (s.fields.filterMap fun f => ((f.type.concrete t).settleCall? f.name).map .line)

end ReactiveSpace.Target
