import ReactiveSpace.Json.Token

/-!
# Trees as they are written

A `Tree` keeps what a text says before anything is decided about it: the members of an object in
the order they are written, repeated names included. The reader takes the tokens one at a time with
a stack of the containers that are open, so it recurses on the tokens alone.

A part that can only be skipped over is `unusable`: a number without a value, a text with half a
surrogate pair, an object with such a text as a name, or a container that lies inside
`Tree.levels` others.
-/

namespace ReactiveSpace.Json

/-- A value as it is written. -/
inductive Tree where
  | null
  | bool (value : Bool)
  | number (value : Number)
  | string (value : String)
  | array (items : List Tree)
  | object (members : List (String × Tree))
  /-- Well formed, and of no use to anyone who looks at it. -/
  | unusable
deriving Inhabited

namespace Tree

/-- How many containers may lie in one another. -/
def levels : Nat := 127

/-- A container that is open, with what it holds so far, last first. -/
inductive Frame where
  | array (items : List Tree)
  /-- An object whose next value belongs to `name`; `none` is a name that can not be used. -/
  | object (members : List (Option String × Tree)) (name : Option String)

/-- What the next token has to be. -/
inductive Reader where
  /-- A value. -/
  | value (frames : List Frame)
  /-- A value or the end of the array that was just opened. -/
  | firstItem (frames : List Frame)
  /-- A comma or the end of the array. -/
  | afterItem (items : List Tree) (frames : List Frame)
  /-- A name or the end of the object that was just opened. -/
  | firstName (frames : List Frame)
  /-- A name. -/
  | nextName (members : List (Option String × Tree)) (frames : List Frame)
  /-- The colon after a name. -/
  | colon (members : List (Option String × Tree)) (name : Option String) (frames : List Frame)
  /-- A comma or the end of the object. -/
  | afterMember (members : List (Option String × Tree)) (frames : List Frame)
  /-- Nothing: the value is complete. -/
  | complete (tree : Tree)

/-- Hands a finished value to the innermost open container. -/
def deliver (t : Tree) : List Frame → Reader
  | [] => .complete t
  | .array items :: frames => .afterItem (t :: items) frames
  | .object members name :: frames => .afterMember ((name, t) :: members) frames

/-- The array of `items`, which come last first, unless it lies too deep. -/
def closeArray (items : List Tree) (outer : List Frame) : Tree :=
  if outer.length < levels then .array items.reverse else .unusable

/-- The members, in order, if every name can be used. -/
def usableMembers? : List (Option String × Tree) → Option (List (String × Tree))
  | [] => some []
  | (some name, t) :: rest => (usableMembers? rest).map ((name, t) :: ·)
  | (none, _) :: _ => none

/-- The object of `members`, which come last first, unless it lies too deep. -/
def closeObject (members : List (Option String × Tree)) (outer : List Frame) : Tree :=
  if outer.length < levels then
    match usableMembers? members.reverse with
    | some ms => .object ms
    | none => .unusable
  else .unusable

/-- A token where a value has to come. -/
def Reader.startValue? (frames : List Frame) : Token → Option Reader
  | .null => some (deliver .null frames)
  | .bool b => some (deliver (.bool b) frames)
  | .number n => some (deliver (.number n) frames)
  | .string s => some (deliver (.string s) frames)
  | .hugeNumber => some (deliver .unusable frames)
  | .brokenString => some (deliver .unusable frames)
  | .openBracket => some (.firstItem frames)
  | .openBrace => some (.firstName frames)
  | _ => none

/-- A token where a name has to come. -/
def Reader.startName? (members : List (Option String × Tree)) (frames : List Frame) :
    Token → Option Reader
  | .string s => some (.colon members (some s) frames)
  | .brokenString => some (.colon members none frames)
  | _ => none

/-- One token. -/
def Reader.step? (r : Reader) (t : Token) : Option Reader :=
  match r with
  | .value frames => startValue? frames t
  | .firstItem frames =>
    if t = .closeBracket then some (deliver (closeArray [] frames) frames)
    else startValue? (.array [] :: frames) t
  | .afterItem items frames =>
    match t with
    | .comma => some (.value (.array items :: frames))
    | .closeBracket => some (deliver (closeArray items frames) frames)
    | _ => none
  | .firstName frames =>
    if t = .closeBrace then some (deliver (closeObject [] frames) frames)
    else startName? [] frames t
  | .nextName members frames => startName? members frames t
  | .colon members name frames =>
    match t with
    | .colon => some (.value (.object members name :: frames))
    | _ => none
  | .afterMember members frames =>
    match t with
    | .comma => some (.nextName members frames)
    | .closeBrace => some (deliver (closeObject members frames) frames)
    | _ => none
  | .complete _ => none

/-- The reader after some tokens. -/
def Reader.run? (r : Reader) : List Token → Option Reader
  | [] => some r
  | t :: ts =>
    match r.step? t with
    | some next => next.run? ts
    | none => none

/-- The tree that tokens write. -/
def ofTokens? (tokens : List Token) : Option Tree :=
  match Reader.run? (.value []) tokens with
  | some (.complete t) => some t
  | _ => none

/-- The tree that a text writes. -/
def ofText? (text : String) : Option Tree :=
  (Token.scan? text).bind ofTokens?

end Tree

end ReactiveSpace.Json
