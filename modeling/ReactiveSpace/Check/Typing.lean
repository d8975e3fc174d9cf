import ReactiveSpace.Check.Resolve
import ReactiveSpace.Schema.Capability
import ReactiveSpace.Text.Blank

/-!
# Typing

`Node.diagnostics` lists what is wrong with a type at its place in the declarations, and
`Structure.diagnostics` what is wrong with a structure. Both are functions of the table of types,
the structure around the node and the node itself: the diagnostics of a whole are the diagnostics
of its parts in order, so no violation hides another.
-/

namespace ReactiveSpace

/-- Diagnostics at one position. -/
def Diagnostic.allAt (position : Position) (problems : List Problem) : List Diagnostic :=
  problems.map fun p => ⟨position, p⟩

/-- The problem with a name that can not name a member. -/
def Problem.ofMember (use : NameUse) (name : String) : List Problem :=
  match Name.memberProblem? name with
  | some problem => [.unusableName use name problem]
  | none => []

/-- The problem `p` alone when the condition holds, else none. -/
def Problem.when (condition : Bool) (p : Problem) : List Problem :=
  if condition then [p] else []

/-- The problem of a container whose range comes down to a table. -/
def Table.rangeProblems (t : Table) (container : Container) (range : Node) : List Problem :=
  Problem.when (t.isTable range) (.tableRange container range.describe)

/-- The problem of a map whose domain comes down to something other than a key type. A domain that
comes down to nothing is the reference's own problem. -/
def Table.domainProblems (t : Table) (domain : Node) : List Problem :=
  match t.follow? domain with
  | some target => Problem.when (!target.isMapDomain) (.badDomain domain.describe)
  | none => []

/-- The problems of a reference: that it leads nowhere, or that what it leads to may not stand in
the structure around it. -/
def Table.referenceProblems (t : Table) (scope : Option (Structure Node)) (name : String) :
    List Problem :=
  match t.resolve name with
  | .error e => [.unresolved e]
  | .ok r =>
    let inMessage := match scope with
      | some owner => owner.role == .message
      | none => false
    match (t.target? r).map Node.kind with
    | some (.message s) => Problem.when (!inMessage) (.bareMessage s.name)
    | some (.record s) => Problem.when inMessage (.recordInMessage s.name)
    | _ => []

namespace Structure

/-- The problems of a stated privacy. -/
def privacyProblems (t : Table) (s : Structure Node) (f : Field Node) : List Problem :=
  match f.privacy with
  | some (.viewerIs viewer) =>
    let principal := match s.field? viewer with
      | some v => t.scalarOf? v.type == some .principal
      | none => false
    Problem.when (!principal) (.viewerNotPrincipal viewer f.name s.name)
  | some (.useCustom rule) =>
    Problem.when (!s.rules.any fun r => r.name == rule) (.ruleNotFound rule f.name s.name)
  | _ => []

/-- The problems of a field with the structure around it, its type aside. -/
def fieldProblems (t : Table) (s : Structure Node) (f : Field Node) : List Problem :=
  Problem.when (f.privacy.isSome && t.isTable f.type) (.tablePrivacy f.name) ++
    Problem.when (f.type.isProjection && (f.readonly || f.privacy.isSome))
      (.projectionMarked f.name) ++
    s.privacyProblems t f ++
    Problem.when (s.role == .message && !f.type.fitsMessage)
      (.unfitForMessage f.name s.name f.type.describe)

/-- The problems of a record with its identity. -/
def identityProblems (t : Table) (s : Structure Node) : List Problem :=
  match s.field? "id" with
  | none => [.missingId s.name]
  | some id =>
    Problem.when (t.scalarOf? id.type != some .int) (.idNotInt s.name id.type.describe)

/-- The problems of an index. -/
def indexProblems (t : Table) (s : Structure Node) (i : Index) : List Problem :=
  match s.field? i.field with
  | none => [.indexNotFound i.field s.name]
  | some f =>
    let indexable := match t.scalarOf? f.type with
      | some scalar => scalar.isIndexable
      | none => false
    Problem.when (!indexable) (.notIndexable i.field f.type.describe)

/-- The problems of the names of a method, after methods with the names `earlier`. -/
def methodNameProblems (s : Structure Node) (earlier : List String) (m : Method Node) :
    List Problem :=
  Problem.ofMember .method m.name ++
    m.parameters.flatMap (fun p => Problem.ofMember .parameter p.name) ++
    Problem.when (s.fields.any fun f => f.name == m.name) (.methodIsField m.name s.name) ++
    Problem.when (earlier.contains m.name) (.duplicateMethod m.name s.name)

end Structure

mutual

/-- What is wrong with a type inside the structure `scope`, or directly in the table. -/
def Node.diagnostics (t : Table) (scope : Option (Structure Node)) : Node → List Diagnostic
  | ⟨_, _, .scalar _⟩ => []
  | ⟨_, _, .text⟩ => []
  | ⟨position, _, .replication service method⟩ =>
    Diagnostic.allAt position
      (Problem.when (service.isEmpty || method.isEmpty) .replicationIncomplete)
  | ⟨position, _, .list element⟩ =>
    Node.diagnostics t scope element ++
      Diagnostic.allAt position (t.rangeProblems .list element)
  | ⟨position, _, .map domain range⟩ =>
    Node.diagnostics t scope domain ++ Node.diagnostics t scope range ++
      Diagnostic.allAt position (t.domainProblems domain ++ t.rangeProblems .map range)
  | ⟨_, _, .maybe inner⟩ => Node.diagnostics t scope inner
  | ⟨position, _, .table record⟩ =>
    Diagnostic.allAt position (t.resolveTable record).problems
  | ⟨position, _, .holder message⟩ =>
    Diagnostic.allAt position (t.resolveHolder message).problems
  | ⟨position, _, .projection table field⟩ =>
    Diagnostic.allAt position (t.resolveProjection scope table field).problems
  | ⟨position, _, .lazy computed formula _⟩ =>
    Node.diagnostics t scope computed ++
      Diagnostic.allAt position
        (Problem.when (Text.trim formula).isEmpty .emptyFormula ++
          t.rangeProblems .formula computed)
  | ⟨position, _, .record s⟩ => Structure.diagnostics t position s
  | ⟨position, _, .message s⟩ => Structure.diagnostics t position s
  | ⟨position, _, .ref name⟩ => Diagnostic.allAt position (t.referenceProblems scope name)
termination_by structural x => x

/-- What is wrong with a structure whose declaration stands at `position`. -/
def Structure.diagnostics (t : Table) (position : Position) : Structure Node → List Diagnostic
  | ⟨name, role, fields, indices, methods, rules, span⟩ =>
    let s : Structure Node := ⟨name, role, fields, indices, methods, rules, span⟩
    Structure.fieldDiagnostics t s [] fields ++
      Diagnostic.allAt position (if role = .record then s.identityProblems t else []) ++
      indices.flatMap (fun i => Diagnostic.allAt i.position (s.indexProblems t i)) ++
      Structure.methodDiagnostics t s [] methods ++
      rules.flatMap (fun r => Diagnostic.allAt r.position (Problem.ofMember .rule r.name))
termination_by structural x => x

/-- What is wrong with the fields of `s` that come after fields with the names `earlier`. -/
def Structure.fieldDiagnostics (t : Table) (s : Structure Node) (earlier : List String) :
    List (Field Node) → List Diagnostic
  | [] => []
  | ⟨name, type, privacy, readonly, initial, position⟩ :: fs =>
    Diagnostic.allAt position (Problem.ofMember .field name ++
        Problem.when (earlier.contains name) (.duplicateField name s.name)) ++
      Node.diagnostics t (some s) type ++
      Diagnostic.allAt position
        (s.fieldProblems t ⟨name, type, privacy, readonly, initial, position⟩) ++
      Structure.fieldDiagnostics t s (name :: earlier) fs
termination_by structural x => x

/-- What is wrong with the methods of `s` that come after methods with the names `earlier`. -/
def Structure.methodDiagnostics (t : Table) (s : Structure Node) (earlier : List String) :
    List (Method Node) → List Diagnostic
  | [] => []
  | ⟨name, parameters, returns, readonly, body, position⟩ :: ms =>
    Diagnostic.allAt position
        (s.methodNameProblems earlier ⟨name, parameters, returns, readonly, body, position⟩) ++
      Structure.parameterDiagnostics t s parameters ++
      Structure.resultDiagnostics t s returns ++
      Structure.methodDiagnostics t s (name :: earlier) ms
termination_by structural x => x

/-- What is wrong with the types of parameters. -/
def Structure.parameterDiagnostics (t : Table) (s : Structure Node) :
    List (Parameter Node) → List Diagnostic
  | [] => []
  | ⟨_, type⟩ :: ps => Node.diagnostics t (some s) type ++ Structure.parameterDiagnostics t s ps
termination_by structural x => x

/-- What is wrong with a result type. -/
def Structure.resultDiagnostics (t : Table) (s : Structure Node) :
    Option Node → List Diagnostic
  | none => []
  | some type => Node.diagnostics t (some s) type
termination_by structural x => x

end

end ReactiveSpace
