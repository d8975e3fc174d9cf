import ReactiveSpace.Keyed
import ReactiveSpace.Remaining
import ReactiveSpace.Schema.Node

/-!
# The table of named types

Records, messages and aliases share one table, in the order of their declaration, beside
the structure of the document root. A name stands for the node declared under it; when that
node is a reference, the chain of names is followed until it ends at another node, at a
name that nobody declared, or at a name it has already passed. `Table.resolve` walks this
chain: it terminates because each step passes one more declared name.
-/

namespace ReactiveSpace

/-- What a name, or a node that depends on its surroundings, stands for. -/
inductive Resolution where
  /-- The record of this name. -/
  | record (name : String)
  /-- The message of this name. -/
  | message (name : String)
  /-- The alias of this name, whose node is neither a structure nor a reference. -/
  | aliased (name : String)
  /-- The rows of `record`, reached through the variable `table`, grouped by a field that holds
  values of `domain`. -/
  | projection (table record : String) (domain : Scalar)
deriving DecidableEq

/-- Why a name stands for nothing. -/
inductive ResolveError where
  /-- The chain of names ends at a name that is not declared. -/
  | notFound (name : String)
  /-- The chain of names comes back to one of its own; the last name is the first repeated one. -/
  | aliasCycle (chain : List String)
deriving DecidableEq

/-- The error in words. -/
def ResolveError.message : ResolveError → String
  | .notFound name => s!"The type '{name}' was not found"
  | .aliasCycle chain => "The alias chain " ++ " -> ".intercalate chain ++ " forms a cycle"

/-- The named types of a space, and its root. -/
structure Table where
  entries : List (String × Node) := []
  root : Structure Node := Structure.emptyRoot
  distinct : (Keyed.names entries).Nodup := by exact List.nodup_nil

namespace Table

instance : Inhabited Table := ⟨{}⟩

/-- The node declared under a name. -/
def get? (t : Table) (name : String) : Option Node :=
  Keyed.get? name t.entries

/-- Whether a name is declared. -/
def contains (t : Table) (name : String) : Bool :=
  (t.get? name).isSome

/-- The declared names, in order. -/
def names (t : Table) : List String :=
  Keyed.names t.entries

/-- Declares a name, unless it is taken: then the first declaration stays and the answer is
`false`. -/
def declare (t : Table) (name : String) (node : Node) : Table × Bool :=
  if h : name ∈ t.names then (t, false)
  else
    ({ t with
        entries := t.entries ++ [(name, node)]
        distinct := Keyed.nodup_names_append node t.distinct h }, true)

/-- The structures of the record entries, in order. -/
def records (t : Table) : List (Structure Node) :=
  t.entries.filterMap fun e => e.2.record?

/-- The structures of the message entries, in order. -/
def messages (t : Table) : List (Structure Node) :=
  t.entries.filterMap fun e => e.2.message?

/-- The structure of the record or message declared under a name. -/
def structure? (t : Table) (name : String) : Option (Structure Node) :=
  (t.get? name).bind Node.structure?

/-! ### Resolution of names -/

/-- A name that has a node is declared. -/
theorem mem_names_of_get? {t : Table} {name : String} {node : Node} (h : t.get? name = some node) :
    name ∈ t.names := by
  refine Classical.not_not.1 fun hn => ?_
  have := (Keyed.get?_eq_none_iff name t.entries).2 hn
  simp only [get?] at h
  simp [this] at h

/-- What `name` stands for, after the names in `seen`, which come last first. -/
def resolveFrom (t : Table) (seen : List String) (name : String) :
    Except ResolveError Resolution :=
  if _hs : name ∈ seen then .error (.aliasCycle (seen.reverse ++ [name]))
  else
    match _hg : t.get? name with
    | none => .error (.notFound name)
    | some node =>
      match node.kind with
      | .record _ => .ok (.record name)
      | .message _ => .ok (.message name)
      | .ref next => t.resolveFrom (name :: seen) next
      | _ => .ok (.aliased name)
termination_by (remaining t.names seen).length
decreasing_by exact length_remaining_cons_lt _hs (mem_names_of_get? _hg)

/-- What a name stands for. -/
def resolve (t : Table) (name : String) : Except ResolveError Resolution :=
  t.resolveFrom [] name

/-- The entry that a resolution leads to. A projection leads to none. -/
def target? (t : Table) : Resolution → Option Node
  | .record name | .message name | .aliased name => t.get? name
  | .projection _ _ _ => none

/-- The node that a name stands for in the end. -/
def followName? (t : Table) (name : String) : Option Node :=
  match t.resolve name with
  | .ok r => t.target? r
  | .error _ => none

/-- The node itself, or the node that a reference stands for in the end. -/
def follow? (t : Table) (n : Node) : Option Node :=
  match n.kind with
  | .ref name => t.followName? name
  | _ => some n

/-- The scalar that a type comes down to. -/
def scalarOf? (t : Table) (n : Node) : Option Scalar :=
  (t.follow? n).bind Node.scalar?

/-- Whether a type comes down to a table. -/
def isTable (t : Table) (n : Node) : Bool :=
  match t.follow? n with
  | some target => target.isTable
  | none => false

end Table

end ReactiveSpace
