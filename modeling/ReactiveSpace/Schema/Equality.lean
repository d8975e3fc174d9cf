import ReactiveSpace.Schema.Node

/-!
# Equality of types

Two types are the same when they say the same, wherever they stand: the positions of nodes are left
out at every depth, and nothing else is. The positions of structures and of their parts count.
-/

namespace ReactiveSpace

mutual

/-- Whether two types are the same. -/
def Node.same : Node → Node → Bool
  | ⟨_, notes, k⟩, ⟨_, notes', k'⟩ => Kind.same k k' && notes == notes'

/-- Whether two kinds are the same. -/
def Kind.same : Kind Node → Kind Node → Bool
  | .scalar a, .scalar b => a == b
  | .text, .text => true
  | .replication s m, .replication s' m' => s == s' && m == m'
  | .list a, .list b => Node.same a b
  | .map d r, .map d' r' => Node.same d d' && Node.same r r'
  | .maybe a, .maybe b => Node.same a b
  | .table a, .table b => a == b
  | .holder a, .holder b => a == b
  | .projection t f, .projection t' f' => t == t' && f == f'
  | .lazy a f c, .lazy b f' c' => Node.same a b && f == f' && c == c'
  | .record s, .record s' => Structure.same s s'
  | .message s, .message s' => Structure.same s s'
  | .ref a, .ref b => a == b
  | _, _ => false

/-- Whether two structures are the same. -/
def Structure.same : Structure Node → Structure Node → Bool
  | ⟨name, role, fields, indices, methods, rules, position⟩, other =>
    name == other.name && role == other.role && Field.allSame fields other.fields &&
      indices == other.indices && Method.allSame methods other.methods &&
      rules == other.rules && position == other.position

/-- Whether two lists of fields are the same. -/
def Field.allSame : List (Field Node) → List (Field Node) → Bool
  | [], [] => true
  | ⟨name, type, privacy, readonly, initial, position⟩ :: fs, g :: gs =>
    name == g.name && Node.same type g.type && privacy == g.privacy && readonly == g.readonly &&
      initial == g.initial && position == g.position && Field.allSame fs gs
  | _, _ => false

/-- Whether two lists of methods are the same. -/
def Method.allSame : List (Method Node) → List (Method Node) → Bool
  | [], [] => true
  | ⟨name, parameters, returns, readonly, body, position⟩ :: ms, m :: ms' =>
    name == m.name && Parameter.allSame parameters m.parameters &&
      Method.sameResult returns m.returns && readonly == m.readonly && body == m.body &&
      position == m.position && Method.allSame ms ms'
  | _, _ => false

/-- Whether two lists of parameters are the same. -/
def Parameter.allSame : List (Parameter Node) → List (Parameter Node) → Bool
  | [], [] => true
  | ⟨name, type⟩ :: ps, p :: ps' =>
    name == p.name && Node.same type p.type && Parameter.allSame ps ps'
  | _, _ => false

/-- Whether two result types are the same. -/
def Method.sameResult : Option Node → Option Node → Bool
  | none, none => true
  | some a, some b => Node.same a b
  | _, _ => false

end

/-- Whether two lists of structures are the same. -/
def Structure.allSame : List (Structure Node) → List (Structure Node) → Bool
  | [], [] => true
  | s :: ss, t :: ts => s.same t && Structure.allSame ss ts
  | _, _ => false

end ReactiveSpace
