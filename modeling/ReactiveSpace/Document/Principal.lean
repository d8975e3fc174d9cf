import ReactiveSpace.Json.Value

/-!
# Who asks

A principal acts on documents. A context tells the static predicates who asks and from where. Both
cross the border of a unit as values.
-/

namespace ReactiveSpace

/-- Who is acting. -/
structure Principal where
  agent : String
  authority : String
deriving DecidableEq, Inhabited

namespace Principal

/-- The principal of transactions that no user asked for. -/
def system : Principal := ⟨"?", "system"⟩

/-- A principal as a value. -/
def toJson (p : Principal) : Json :=
  .object [("agent", .string p.agent), ("authority", .string p.authority)]

end Principal

/-- What the static predicates decide about. -/
structure Context where
  who : Principal
  origin : String
  ip : String
deriving DecidableEq, Inhabited

namespace Context

/-- The context of requests that come from no user. -/
def system : Context := ⟨.system, "origin", "127.0.0.1"⟩

/-- A context as a value. -/
def toJson (c : Context) : Json :=
  .object [("who", c.who.toJson), ("origin", .string c.origin), ("ip", .string c.ip)]

end Context

end ReactiveSpace
