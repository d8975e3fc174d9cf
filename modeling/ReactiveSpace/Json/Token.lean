import ReactiveSpace.Json.Number
import ReactiveSpace.Text.Quoted

/-!
# Tokens of the data format

`Token.scan` cuts a text into tokens, one character at a time, and `Token.text` writes a token.
Between tokens only space, tab, line feed and carriage return may stand. A text with a lone
surrogate escape and a number beyond the doubles are tokens too, because a value that is not looked
at may hold them.
-/

namespace ReactiveSpace.Json

/-- A token. -/
inductive Token where
  | openBrace
  | closeBrace
  | openBracket
  | closeBracket
  | colon
  | comma
  | null
  | bool (value : Bool)
  | number (value : Number)
  | string (value : String)
  /-- A number literal without a value. -/
  | hugeNumber
  /-- A string literal that escapes half of a surrogate pair. -/
  | brokenString
deriving DecidableEq, Inhabited

namespace Token

/-! ### Strings -/

/-- Whether a code unit is the first half of a surrogate pair. -/
def isHighSurrogate (u : Nat) : Bool :=
  0xD800 ≤ u && u < 0xDC00

/-- Whether a code unit is the second half of a surrogate pair. -/
def isLowSurrogate (u : Nat) : Bool :=
  0xDC00 ≤ u && u < 0xE000

/-- The characters that code points and surrogate halves stand for. -/
def joinUnits : List Nat → Option (List Char)
  | [] => some []
  | [u] => if isHighSurrogate u || isLowSurrogate u then none else some [Char.ofNat u]
  | u :: v :: rest =>
    if isHighSurrogate u then
      if isLowSurrogate v then
        (joinUnits rest).map (Char.ofNat (0x10000 + (u - 0xD800) * 0x400 + (v - 0xDC00)) :: ·)
      else none
    else if isLowSurrogate u then none
    else (joinUnits (v :: rest)).map (Char.ofNat u :: ·)

/-- The token of a string literal. -/
def ofUnits (units : List Nat) : Token :=
  match joinUnits units with
  | some cs => .string (String.ofList cs)
  | none => .brokenString

/-- The character that a letter after a backslash stands for. -/
def unescape? : Char → Option Char
  | '"' => some '"'
  | '\\' => some '\\'
  | '/' => some '/'
  | 'b' => some '\x08'
  | 'f' => some '\x0c'
  | 'n' => some '\n'
  | 'r' => some '\r'
  | 't' => some '\t'
  | _ => none

/-- The value of a hexadecimal digit of either case. -/
def hexValue? (c : Char) : Option Nat :=
  if '0' ≤ c ∧ c ≤ '9' then some (c.toNat - '0'.toNat)
  else if 'a' ≤ c ∧ c ≤ 'f' then some (c.toNat - 'a'.toNat + 10)
  else if 'A' ≤ c ∧ c ≤ 'F' then some (c.toNat - 'A'.toNat + 10)
  else none

/-- What a string literal holds for the character `c`. -/
def escape (c : Char) : List Char :=
  match c with
  | '"' => ['\\', '"']
  | '\\' => ['\\', '\\']
  | '\x08' => ['\\', 'b']
  | '\x0c' => ['\\', 'f']
  | '\n' => ['\\', 'n']
  | '\r' => ['\\', 'r']
  | '\t' => ['\\', 't']
  | c =>
    if c.toNat < 0x20 then
      ['\\', 'u', '0', '0', Nat.digitChar (c.toNat / 16), Nat.digitChar (c.toNat % 16)]
    else [c]

/-- A text as a string literal. -/
def stringText (s : String) : String :=
  String.ofList ('"' :: (s.toList.flatMap escape ++ ['"']))

/-- A token as text. The tokens without a value have none. -/
def text : Token → String
  | .openBrace => "\x7b"
  | .closeBrace => "\x7d"
  | .openBracket => "["
  | .closeBracket => "]"
  | .colon => ":"
  | .comma => ","
  | .null => "null"
  | .bool true => "true"
  | .bool false => "false"
  | .number n => n.text
  | .string s => stringText s
  | .hugeNumber => ""
  | .brokenString => ""

/-! ### Scanning -/

/-- Where the scanner stands. Characters and code units of an open token are kept last first. -/
inductive Place where
  /-- Between tokens. -/
  | between
  /-- In a word of letters. -/
  | word (seen : List Char)
  /-- In a number literal. -/
  | number (seen : List Char)
  /-- In a string literal. -/
  | string (units : List Nat)
  /-- In a string literal, after a backslash. -/
  | escape (units : List Nat)
  /-- In a string literal, after some of the four digits of a code unit. -/
  | unit (units : List Nat) (count value : Nat)

/-- Whether a character may stand between tokens. -/
def isSpace (c : Char) : Bool :=
  c == ' ' || c == '\t' || c == '\n' || c == '\r'

/-- Whether a character may stand in a number literal. -/
def isNumberChar (c : Char) : Bool :=
  c.isDigit || c == '-' || c == '+' || c == '.' || c == 'e' || c == 'E'

/-- The token of a word. -/
def ofWord? (cs : List Char) : Option Token :=
  if cs = ['n', 'u', 'l', 'l'] then some .null
  else if cs = ['t', 'r', 'u', 'e'] then some (.bool true)
  else if cs = ['f', 'a', 'l', 's', 'e'] then some (.bool false)
  else none

/-- The token of a number literal. -/
def ofNumber? (cs : List Char) : Option Token :=
  (Number.Literal.ofChars? cs).map fun l =>
    match l.value? with
    | some n => .number n
    | none => .hugeNumber

/-- The token that ends when its next character does not belong to it. -/
def Place.close? : Place → Option (List Token)
  | .between => some []
  | .word seen => (ofWord? seen.reverse).map ([·])
  | .number seen => (ofNumber? seen.reverse).map ([·])
  | _ => none

/-- A character between two tokens: a token of its own, or the start of one. -/
def start? (c : Char) : Option (List Token × Place) :=
  match c with
  | '\x7b' => some ([.openBrace], .between)
  | '\x7d' => some ([.closeBrace], .between)
  | '[' => some ([.openBracket], .between)
  | ']' => some ([.closeBracket], .between)
  | ':' => some ([.colon], .between)
  | ',' => some ([.comma], .between)
  | '"' => some ([], .string [])
  | c =>
    if isSpace c then some ([], .between)
    else if c.isDigit || c == '-' then some ([], .number [c])
    else if c.isAlpha then some ([], .word [c])
    else none

/-- One character: the tokens that end with or before it, and where the scanner stands then. -/
def Place.step? (p : Place) (c : Char) : Option (List Token × Place) :=
  match p with
  | .between => start? c
  | .word seen =>
    if c.isAlpha then some ([], .word (c :: seen))
    else do
      let closed ← (Place.word seen).close?
      let (opened, next) ← start? c
      return (closed ++ opened, next)
  | .number seen =>
    if isNumberChar c then some ([], .number (c :: seen))
    else do
      let closed ← (Place.number seen).close?
      let (opened, next) ← start? c
      return (closed ++ opened, next)
  | .string units =>
    if c == '"' then some ([ofUnits units.reverse], .between)
    else if c == '\\' then some ([], .escape units)
    else if c.toNat < 0x20 then none
    else some ([], .string (c.toNat :: units))
  | .escape units =>
    if c == 'u' then some ([], .unit units 0 0)
    else (unescape? c).map fun d => ([], .string (d.toNat :: units))
  | .unit units count value => do
    let digit ← hexValue? c
    let value := value * 16 + digit
    return ([], if count = 3 then .string (value :: units) else .unit units (count + 1) value)

/-- The tokens of the characters from a place on, after the tokens `done`, which come last first. -/
def scanFrom? (done : List Token) (p : Place) : List Char → Option (List Token)
  | [] => p.close?.map fun last => done.reverse ++ last
  | c :: cs =>
    match p.step? c with
    | some (found, next) => scanFrom? (found.reverse ++ done) next cs
    | none => none

/-- The tokens of a text. -/
def scan? (text : String) : Option (List Token) :=
  scanFrom? [] .between text.toList

end Token

end ReactiveSpace.Json
