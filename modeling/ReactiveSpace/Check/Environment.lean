import ReactiveSpace.Check.Checked
import ReactiveSpace.Check.Recording

/-!
# Typing in one pass

An `Environment` is what typing carries from one type to the next: the structure whose members are
being typed, the diagnostics so far and the resolutions so far. `Node.typing` types a type in an
environment, `Table.typing` all types of a table one after the other, and `Draft.typing` is the
whole of checking. A pass enters a structure for its members and leaves it behind them; it only ever
reports and records.
-/

namespace ReactiveSpace

/-- What typing carries from one type to the next. -/
structure Environment where
  /-- The structure whose members are being typed. -/
  scope : Option (Structure Node) := none
  diagnostics : List Diagnostic := []
  resolutions : Resolutions := []

namespace Environment

/-- Reports a diagnostic. -/
def report (env : Environment) (d : Diagnostic) : Environment :=
  { env with diagnostics := env.diagnostics ++ [d] }

/-- Reports problems at one position, in order. -/
def reportAt (env : Environment) (position : Position) (problems : List Problem) : Environment :=
  problems.foldl (fun env p => env.report ⟨position, p⟩) env

/-- Records what the node of an identity stands for. -/
def record (env : Environment) (identity : Nat) (r : Resolution) : Environment :=
  { env with resolutions := (identity, r) :: env.resolutions }

/-- Goes into a structure. -/
def enter (env : Environment) (s : Structure Node) : Environment :=
  { env with scope := some s }

/-- Goes back to what was around a structure. -/
def leave (env : Environment) (outer : Option (Structure Node)) : Environment :=
  { env with scope := outer }

/-- Records what a node stands for or reports the problem with it. When another node is to blame
there is nothing to do. -/
def conclude (env : Environment) (identity : Nat) (position : Position) : Outcome → Environment
  | .ok r => env.record identity r
  | .error (some p) => env.report ⟨position, p⟩
  | .error none => env

end Environment

section Pass

variable (t : Table) (identity : Address → Nat)

mutual

/-- Types the type at an address. -/
def Node.typing (env : Environment) (a : Address) : Node → Environment
  | ⟨_, _, .scalar _⟩ => env
  | ⟨_, _, .text⟩ => env
  | ⟨position, _, .replication service method⟩ =>
    env.reportAt position
      (Problem.when (service.isEmpty || method.isEmpty) .replicationIncomplete)
  | ⟨position, _, .list element⟩ =>
    let env := Node.typing env (a.below .element) element
    env.reportAt position (t.rangeProblems .list element)
  | ⟨position, _, .map domain range⟩ =>
    let env := Node.typing env (a.below .domain) domain
    let env := Node.typing env (a.below .range) range
    let env := env.reportAt position (t.domainProblems domain)
    env.reportAt position (t.rangeProblems .map range)
  | ⟨_, _, .maybe inner⟩ => Node.typing env (a.below .inner) inner
  | ⟨position, _, .table record⟩ => env.conclude (identity a) position (t.resolveTable record)
  | ⟨position, _, .holder message⟩ => env.conclude (identity a) position (t.resolveHolder message)
  | ⟨position, _, .projection table field⟩ =>
    env.conclude (identity a) position (t.resolveProjection env.scope table field)
  | ⟨position, _, .lazy computed formula _⟩ =>
    let env := Node.typing env (a.below .computed) computed
    let env := env.reportAt position (Problem.when (Text.trim formula).isEmpty .emptyFormula)
    env.reportAt position (t.rangeProblems .formula computed)
  | ⟨position, _, .record s⟩ => Structure.typing env a position s
  | ⟨position, _, .message s⟩ => Structure.typing env a position s
  | ⟨position, _, .ref name⟩ =>
    -- What a reference stands for is recorded even where it may not stand.
    let found := match t.resolve name with
      | .ok r => env.record (identity a) r
      | .error _ => env
    found.reportAt position (t.referenceProblems env.scope name)
termination_by structural x => x

/-- Types a structure whose declaration stands at `position`. -/
def Structure.typing (env : Environment) (a : Address) (position : Position) :
    Structure Node → Environment
  | ⟨name, role, fields, indices, methods, rules, span⟩ =>
    let s : Structure Node := ⟨name, role, fields, indices, methods, rules, span⟩
    let outer := env.scope
    let env := Structure.typingFields s (env.enter s) a 0 [] fields
    let env := if role = .record then env.reportAt position (s.identityProblems t) else env
    let env := indices.foldl (fun env i => env.reportAt i.position (s.indexProblems t i)) env
    let env := Structure.typingMethods s env a 0 [] methods
    let env := rules.foldl
      (fun env r => env.reportAt r.position (Problem.ofMember .rule r.name)) env
    env.leave outer
termination_by structural x => x

/-- Types fields of `s`, the first of which has the given index, after fields with the names
`earlier`. -/
def Structure.typingFields (s : Structure Node) (env : Environment) (a : Address) (index : Nat)
    (earlier : List String) : List (Field Node) → Environment
  | [] => env
  | ⟨name, type, privacy, readonly, initial, position⟩ :: fs =>
    let env := env.reportAt position (Problem.ofMember .field name)
    let env := env.reportAt position
      (Problem.when (earlier.contains name) (.duplicateField name s.name))
    let env := Node.typing env (a.below (.field index)) type
    let env := env.reportAt position
      (s.fieldProblems t ⟨name, type, privacy, readonly, initial, position⟩)
    Structure.typingFields s env a (index + 1) (name :: earlier) fs
termination_by structural x => x

/-- Types methods of `s`, the first of which has the given index, after methods with the names
`earlier`. -/
def Structure.typingMethods (s : Structure Node) (env : Environment) (a : Address) (index : Nat)
    (earlier : List String) : List (Method Node) → Environment
  | [] => env
  | ⟨name, parameters, returns, readonly, body, position⟩ :: ms =>
    let env := env.reportAt position
      (s.methodNameProblems earlier ⟨name, parameters, returns, readonly, body, position⟩)
    let env := Structure.typingParameters env a index 0 parameters
    let env := Structure.typingResult env a index returns
    Structure.typingMethods s env a (index + 1) (name :: earlier) ms
termination_by structural x => x

/-- Types the parameters of a method. -/
def Structure.typingParameters (env : Environment) (a : Address) (method index : Nat) :
    List (Parameter Node) → Environment
  | [] => env
  | ⟨_, type⟩ :: ps =>
    let env := Node.typing env (a.below (.parameter method index)) type
    Structure.typingParameters env a method (index + 1) ps
termination_by structural x => x

/-- Types the result of a method. -/
def Structure.typingResult (env : Environment) (a : Address) (method : Nat) :
    Option Node → Environment
  | none => env
  | some type => Node.typing env (a.below (.result method)) type
termination_by structural x => x

end

end Pass

/-- Types the entries of a table one after the other, then its root. -/
def Table.typing (t : Table) (identity : Address → Nat) (env : Environment) : Environment :=
  let env := t.entries.foldl (fun env e => e.2.typing t identity env ⟨some e.1, []⟩) env
  t.root.typing t identity env ⟨none, []⟩ t.root.position

/-- Checks what was declared: from what is wrong with the names of declarations on, types the table,
then looks for records that embed each other. -/
def Draft.typing (d : Draft) (identity : Address → Nat) : Environment :=
  let env := d.diagnostics.foldl Environment.report {}
  let env := d.table.typing identity env
  d.table.cycleDiagnostics.foldl Environment.report env

end ReactiveSpace
