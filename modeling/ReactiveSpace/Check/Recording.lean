import ReactiveSpace.Check.Checked

/-!
# Recording resolutions

Typing passes the types of a table one after the other and records what each of them stands for,
under the identity of its node. An `Address` tells the nodes of a table apart: it leads by steps
from an entry, or from the root, to the type. Two nodes have two identities, whatever they look
like, so `Table.Identities` are numbers for the addresses of a table, no two of them the same.
-/

namespace ReactiveSpace

/-- A step to a type from the type or the structure around it. -/
inductive Step where
  | element
  | domain
  | range
  | inner
  | computed
  | field (index : Nat)
  | parameter (method index : Nat)
  | result (method : Nat)
deriving DecidableEq

/-- Where a type stands in a table: the name of the entry it belongs to, if it does not belong to
the root, and the steps that lead to it, last first. -/
structure Address where
  entry : Option String
  steps : List Step := []
deriving DecidableEq

/-- The address one step further. -/
def Address.below (p : Address) (step : Step) : Address :=
  { p with steps := step :: p.steps }

/-- A type that is passed: its address, the structure around it, and the type. -/
structure Visit where
  address : Address
  scope : Option (Structure Node)
  node : Node

mutual

/-- The types that are passed from a type on, the type itself first. -/
def Node.visits (a : Address) (scope : Option (Structure Node)) : Node → List Visit
  | ⟨position, notes, kind⟩ =>
    ⟨a, scope, ⟨position, notes, kind⟩⟩ :: Kind.visits a scope kind
termination_by structural x => x

/-- The types that are passed inside a type. -/
def Kind.visits (a : Address) (scope : Option (Structure Node)) : Kind Node → List Visit
  | .list element => Node.visits (a.below .element) scope element
  | .map domain range =>
    Node.visits (a.below .domain) scope domain ++ Node.visits (a.below .range) scope range
  | .maybe inner => Node.visits (a.below .inner) scope inner
  | .lazy computed _ _ => Node.visits (a.below .computed) scope computed
  | .record s => Structure.visits a s
  | .message s => Structure.visits a s
  | .scalar _ | .text | .replication _ _ | .table _ | .holder _ | .projection _ _ | .ref _ => []
termination_by structural x => x

/-- The types that are passed inside a structure: those of its fields, then those of its methods. -/
def Structure.visits (a : Address) : Structure Node → List Visit
  | ⟨name, role, fields, indices, methods, rules, span⟩ =>
    let s : Structure Node := ⟨name, role, fields, indices, methods, rules, span⟩
    Structure.fieldVisits a s 0 fields ++ Structure.methodVisits a s 0 methods
termination_by structural x => x

/-- The types that are passed in fields of `s`, the first of which has the given index. -/
def Structure.fieldVisits (a : Address) (s : Structure Node) (index : Nat) :
    List (Field Node) → List Visit
  | [] => []
  | ⟨_, type, _, _, _, _⟩ :: fs =>
    Node.visits (a.below (.field index)) (some s) type ++
      Structure.fieldVisits a s (index + 1) fs
termination_by structural x => x

/-- The types that are passed in methods of `s`, the first of which has the given index. -/
def Structure.methodVisits (a : Address) (s : Structure Node) (index : Nat) :
    List (Method Node) → List Visit
  | [] => []
  | ⟨_, parameters, returns, _, _, _⟩ :: ms =>
    Structure.parameterVisits a s index 0 parameters ++
      Structure.resultVisits a s index returns ++
      Structure.methodVisits a s (index + 1) ms
termination_by structural x => x

/-- The types that are passed in parameters of a method of `s`. -/
def Structure.parameterVisits (a : Address) (s : Structure Node) (method index : Nat) :
    List (Parameter Node) → List Visit
  | [] => []
  | ⟨_, type⟩ :: ps =>
    Node.visits (a.below (.parameter method index)) (some s) type ++
      Structure.parameterVisits a s method (index + 1) ps
termination_by structural x => x

/-- The types that are passed in the result of a method of `s`. -/
def Structure.resultVisits (a : Address) (s : Structure Node) (method : Nat) :
    Option Node → List Visit
  | none => []
  | some type => Node.visits (a.below (.result method)) (some s) type
termination_by structural x => x

end

/-- The types that are passed in a table: those of its entries in order, then those of its root. -/
def Table.visits (t : Table) : List Visit :=
  t.entries.flatMap (fun e => e.2.visits ⟨some e.1, []⟩ none) ++ t.root.visits ⟨none, []⟩

/-! ### Identities -/

/-- The identities of the nodes of a table. Two nodes never have the same. -/
structure Table.Identities (t : Table) where
  of : Address → Nat
  distinct : ∀ v ∈ t.visits, ∀ w ∈ t.visits, of v.address = of w.address → v.address = w.address

/-- Resolutions by the identities of nodes. What was recorded last comes first and counts. -/
abbrev Resolutions : Type := List (Nat × Resolution)

/-- What a type stands for where it is passed. -/
def Visit.resolution? (t : Table) (v : Visit) : Option Resolution :=
  v.node.resolution? t (.declared v.scope)

/-- Records what a type stands for, if it stands for something. -/
def Visit.record (t : Table) (identity : Address → Nat) (found : Resolutions) (v : Visit) :
    Resolutions :=
  match v.resolution? t with
  | some r => (identity v.address, r) :: found
  | none => found

/-- What is recorded when all types of a table have been passed. -/
def Table.resolutions (t : Table) (ids : t.Identities) : Resolutions :=
  t.visits.foldl (Visit.record t ids.of) []

end ReactiveSpace
