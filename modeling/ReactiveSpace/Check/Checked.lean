import ReactiveSpace.Check.Dependency
import ReactiveSpace.Check.Typing
import ReactiveSpace.Space.Declarations

/-!
# Checking a space

Checking has two phases. A `Draft` collects the declarations and notes what is wrong with their
names; `Draft.check` then types every entry and the root against the complete table and looks for
records that embed each other. The diagnostics of a space are those of its declarations, of its
entries one after the other, of its root, and one for each cycle of embeddings.
-/

namespace ReactiveSpace

/-- Declarations so far, with what is wrong with their names. -/
structure Draft where
  table : Table
  diagnostics : List Diagnostic := []

namespace Draft

/-- A draft without declarations. -/
def ofRoot (root : Structure Node) : Draft where
  table := { root := root }

/-- Declares a type. -/
def declare (d : Draft) (name : String) (node : Node) : Draft :=
  let problems := match Name.typeProblem? name with
    | some problem => [Problem.unusableName .type name problem]
    | none => []
  let (table, fresh) := d.table.declare name node
  { table := table
    diagnostics := d.diagnostics ++
      Diagnostic.allAt node.position (problems ++ Problem.when (!fresh) (.duplicateType name)) }

/-- Declares a record under its own name. -/
def declareRecord (d : Draft) (s : Structure Node) : Draft :=
  d.declare s.name (.ofRecord s)

/-- Declares a message under its own name. -/
def declareMessage (d : Draft) (s : Structure Node) : Draft :=
  d.declare s.name (.ofMessage s)

/-- What is wrong with the names of tests, after tests with the usable names `earlier`. -/
def testProblems (earlier : List String) : List String → List Problem
  | [] => []
  | name :: names =>
    match Name.memberProblem? name with
    | some problem => .unusableName .test name problem :: testProblems earlier names
    | none =>
      Problem.when (earlier.contains name) (.duplicateTest name) ++
        testProblems (name :: earlier) names

/-- Declares tests. -/
def declareTests (d : Draft) (names : List String) : Draft :=
  { d with diagnostics := d.diagnostics ++ Diagnostic.allAt {} (testProblems [] names) }

end Draft

/-- A space whose declarations have been checked. -/
structure Checked where
  table : Table
  diagnostics : List Diagnostic

namespace Checked

/-- A space is deployable when nothing is wrong with it. -/
def isDeployable (c : Checked) : Bool :=
  c.diagnostics.isEmpty

/-- The dependencies between the records of the space. -/
def dependencies (c : Checked) : Graph :=
  c.table.dependencies

end Checked

/-- What is wrong with the entries of a table, each typed on its own. -/
def Table.entryDiagnostics (t : Table) : List Diagnostic :=
  t.entries.flatMap fun e => e.2.diagnostics t none

/-- What is wrong with the root of a table. -/
def Table.rootDiagnostics (t : Table) : List Diagnostic :=
  t.root.diagnostics t t.root.position

/-- One diagnostic for each cycle of embeddings, at the position of its first record. -/
def Table.cycleDiagnostics (t : Table) : List Diagnostic :=
  t.embeddings.cycles.map fun cycle =>
    let position := match (cycle.head?.bind t.get?).map Node.position with
      | some p => p
      | none => {}
    ⟨position, .embeddingCycle cycle⟩

/-- Types all that was declared. -/
def Draft.check (d : Draft) : Checked where
  table := d.table
  diagnostics := d.diagnostics ++ d.table.entryDiagnostics ++ d.table.rootDiagnostics ++
    d.table.cycleDiagnostics

namespace Declarations

/-- The draft of all declarations. The root has its fixed name, and the role of a structure is that
of the list it was declared in. -/
def draft (d : Declarations) : Draft :=
  let start := Draft.ofRoot { d.root with name := Structure.rootName, role := .root }
  let records := d.records.foldl (fun draft s =>
    draft.declareRecord { s with role := .record }) start
  let messages := d.messages.foldl (fun draft s =>
    draft.declareMessage { s with role := .message }) records
  let aliases := d.aliases.foldl (fun draft e => draft.declare e.1 e.2) messages
  aliases.declareTests (d.surface.tests.map Test.name)

/-- The space with its declarations checked. -/
def check (d : Declarations) : Checked :=
  d.draft.check

end Declarations

end ReactiveSpace
