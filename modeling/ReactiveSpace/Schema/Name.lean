/-!
# Names that become identifiers

Fields, methods, parameters, rules and tests become members of generated types; records, messages
and aliases become types behind a fixed lead-in. A name that can not be written there is refused,
and `NameProblem` says why.
-/

namespace ReactiveSpace

/-- Why a name can not be used. -/
inductive NameProblem where
  | empty
  /-- It starts with neither a letter nor an underscore. -/
  | badStart
  /-- It is a single underscore. -/
  | underscore
  /-- It has a character other than ASCII letters, digits and underscores. -/
  | badCharacter
  /-- The target language keeps it for itself. -/
  | keyword
  /-- It starts with two underscores, as generated members do. -/
  | reserved
deriving DecidableEq

/-- The problem in words. -/
def NameProblem.message : NameProblem → String
  | .empty => "it is empty"
  | .badStart => "it must start with a letter or '_'"
  | .underscore => "'_' alone is not a name"
  | .badCharacter => "it may only contain ASCII letters, digits and '_'"
  | .keyword => "it is a Rust keyword"
  | .reserved => "names starting with '__' are reserved"

namespace Name

/-- The words that the target language keeps for itself, in the order of their characters. -/
def keywords : List String :=
  ["Self", "abstract", "as", "async", "await", "become", "box", "break", "const", "continue",
   "crate", "do", "dyn", "else", "enum", "extern", "false", "final", "fn", "for", "gen", "if",
   "impl", "in", "let", "loop", "macro", "match", "mod", "move", "mut", "override", "priv",
   "pub", "ref", "return", "self", "static", "struct", "super", "trait", "true", "try", "type",
   "typeof", "union", "unsafe", "unsized", "use", "virtual", "where", "while", "yield"]

/-- Whether an identifier may start with `c`. -/
def isStart (c : Char) : Bool :=
  c.isAlpha || c == '_'

/-- Whether an identifier may hold `c` after its start. -/
def isPart (c : Char) : Bool :=
  c.isAlphanum || c == '_'

/-- Why `name` can not name a type. Keywords can, since the lead-in comes before them. -/
def typeProblem? (name : String) : Option NameProblem :=
  match name.toList with
  | [] => some .empty
  | c :: cs =>
    if !isStart c then some .badStart
    else if name = "_" then some .underscore
    else if !cs.all isPart then some .badCharacter
    else none

/-- Whether a name starts with two underscores. -/
def isReserved (name : String) : Bool :=
  match name.toList with
  | '_' :: '_' :: _ => true
  | _ => false

/-- Why `name` can not name a member. -/
def memberProblem? (name : String) : Option NameProblem :=
  match typeProblem? name with
  | some problem => some problem
  | none =>
    if keywords.contains name then some .keyword
    else if isReserved name then some .reserved
    else none

/-- Whether `name` may name a unit: a letter or underscore, then letters, digits and
underscores. -/
def isUnitName (name : String) : Bool :=
  match name.toList with
  | [] => false
  | c :: cs => isStart c && cs.all isPart

end Name

end ReactiveSpace
