import ReactiveSpace.Json.Tree
import ReactiveSpace.Keyed

/-!
# Values

`Json` is the type of values: arrays, and objects whose names are distinct and keep their order.
`Json.ofText?` reads a text strictly, so that every part of it has to be usable; of a name written
twice the first place and the last value count. `compact` writes a value without blanks, and
`pretty` with one member a line.
-/

namespace ReactiveSpace

/-- A value of the data format. -/
inductive Json where
  | null
  | bool (value : Bool)
  | number (value : Json.Number)
  | string (value : String)
  | array (items : List Json)
  | object (members : List (String × Json))
deriving Inhabited

namespace Json

/-- A whole number as a value. -/
def ofNat (n : Nat) : Json :=
  .number (.integer n)

/-! ### From trees -/

mutual

/-- The value that a tree stands for, if all of it can be used. -/
def ofTree? : Tree → Option Json
  | .null => some .null
  | .bool b => some (.bool b)
  | .number n => some (.number n)
  | .string s => some (.string s)
  | .array items => (ofItems? items).map .array
  | .object members => (ofMembers? members).map fun ms => .object (Keyed.ofPairs ms)
  | .unusable => none

/-- The values of the items of an array. -/
def ofItems? : List Tree → Option (List Json)
  | [] => some []
  | t :: ts =>
    match ofTree? t, ofItems? ts with
    | some v, some vs => some (v :: vs)
    | _, _ => none

/-- The values of the members of an object, repeated names included. -/
def ofMembers? : List (String × Tree) → Option (List (String × Json))
  | [] => some []
  | (name, t) :: ts =>
    match ofTree? t, ofMembers? ts with
    | some v, some vs => some ((name, v) :: vs)
    | _, _ => none

end

/-- The value that a text writes. -/
def ofText? (text : String) : Option Json :=
  (Tree.ofText? text).bind ofTree?

/-! ### To trees and to text -/

mutual

/-- The tree that writes a value. -/
def toTree : Json → Tree
  | .null => .null
  | .bool b => .bool b
  | .number n => .number n
  | .string s => .string s
  | .array items => .array (itemTrees items)
  | .object members => .object (memberTrees members)

/-- The trees that write the items of an array. -/
def itemTrees : List Json → List Tree
  | [] => []
  | v :: vs => v.toTree :: itemTrees vs

/-- The trees that write the members of an object. -/
def memberTrees : List (String × Json) → List (String × Tree)
  | [] => []
  | (name, v) :: vs => (name, v.toTree) :: memberTrees vs

end

mutual

/-- The tokens of a value. -/
def tokens : Json → List Token
  | .null => [.null]
  | .bool b => [.bool b]
  | .number n => [.number n]
  | .string s => [.string s]
  | .array [] => [.openBracket, .closeBracket]
  | .array (v :: vs) => .openBracket :: (v.tokens ++ (itemTokens vs ++ [.closeBracket]))
  | .object [] => [.openBrace, .closeBrace]
  | .object ((name, v) :: vs) =>
    .openBrace :: .string name :: .colon :: (v.tokens ++ (memberTokens vs ++ [.closeBrace]))

/-- The tokens of the items after the first, each behind a comma. -/
def itemTokens : List Json → List Token
  | [] => []
  | v :: vs => .comma :: (v.tokens ++ itemTokens vs)

/-- The tokens of the members after the first, each behind a comma. -/
def memberTokens : List (String × Json) → List Token
  | [] => []
  | (name, v) :: vs => .comma :: .string name :: .colon :: (v.tokens ++ memberTokens vs)

end

/-- The value as text without blanks. -/
def compact (v : Json) : String :=
  String.join (v.tokens.map Token.text)

/-- A line feed and the indentation of the given depth. -/
def breakLine (depth : Nat) : String :=
  "\n" ++ String.ofList (List.replicate (2 * depth) ' ')

mutual

/-- The value with its items and members on lines of their own, indented below `depth`. -/
def prettyAt (depth : Nat) : Json → String
  | .null => "null"
  | .bool b => (Token.bool b).text
  | .number n => n.text
  | .string s => Token.stringText s
  | .array [] => "[]"
  | .array (v :: vs) =>
    "[" ++ breakLine (depth + 1) ++ v.prettyAt (depth + 1) ++ prettyItems (depth + 1) vs ++
      breakLine depth ++ "]"
  | .object [] => "\x7b\x7d"
  | .object ((name, v) :: vs) =>
    "\x7b" ++ breakLine (depth + 1) ++ Token.stringText name ++ ": " ++ v.prettyAt (depth + 1) ++
      prettyMembers (depth + 1) vs ++ breakLine depth ++ "\x7d"

/-- The items after the first. -/
def prettyItems (depth : Nat) : List Json → String
  | [] => ""
  | v :: vs => "," ++ breakLine depth ++ v.prettyAt depth ++ prettyItems depth vs

/-- The members after the first. -/
def prettyMembers (depth : Nat) : List (String × Json) → String
  | [] => ""
  | (name, v) :: vs =>
    "," ++ breakLine depth ++ Token.stringText name ++ ": " ++ v.prettyAt depth ++
      prettyMembers depth vs

end

/-- The value with two blanks of indentation a level. -/
def pretty (v : Json) : String :=
  v.prettyAt 0

/-! ### Equality -/

mutual

/-- Whether two values are equal. The order of an object's members does not matter. -/
def same : Json → Json → Bool
  | .null, .null => true
  | .bool a, .bool b => a == b
  | .number a, .number b => a.same b
  | .string a, .string b => a == b
  | .array xs, .array ys => sameItems xs ys
  | .object xs, .object ys => xs.length == ys.length && sameMembers xs ys
  | _, _ => false

/-- Whether two arrays have the same items in order. -/
def sameItems : List Json → List Json → Bool
  | [], [] => true
  | x :: xs, y :: ys => x.same y && sameItems xs ys
  | _, _ => false

/-- Whether each member of the first object is in the second. -/
def sameMembers : List (String × Json) → List (String × Json) → Bool
  | [], _ => true
  | (name, x) :: xs, ys =>
    (match Keyed.get? name ys with
      | some y => x.same y
      | none => false) && sameMembers xs ys

end

/-! ### Parts -/

/-- The member of an object. -/
def get? (name : String) : Json → Option Json
  | .object members => Keyed.get? name members
  | _ => none

/-- The text of a string. -/
def string? : Json → Option String
  | .string s => some s
  | _ => none

/-- The value of a boolean. -/
def bool? : Json → Option Bool
  | .bool b => some b
  | _ => none

/-- The items of an array. -/
def array? : Json → Option (List Json)
  | .array items => some items
  | _ => none

/-- The value of an integer. -/
def int? : Json → Option Int
  | .number (.integer n) => some n
  | _ => none

end Json

end ReactiveSpace
