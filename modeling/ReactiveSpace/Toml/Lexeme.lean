import ReactiveSpace.Json.Number

/-!
# Lexemes of configuration files

The pieces that a configuration file is made of: blanks and comments, quoted texts in their four
forms, and words, which are numbers, truth values and moments in time. Each reader takes what it can
from the start of the characters and gives back the rest.
-/

namespace ReactiveSpace.Toml

/-! ### Blanks, comments and ends of lines -/

/-- Whether `c` is a blank inside a line. -/
def isBlank (c : Char) : Bool :=
  c == ' ' || c == '\t'

/-- Whether `c` may stand in a comment or in a quoted text: it is no control other than the tab. -/
def isVisible (c : Char) : Bool :=
  c == '\t' || (0x20 ≤ c.toNat && c.toNat != 0x7F)

/-- The rest after blanks. -/
def skipBlanks (cs : List Char) : List Char :=
  cs.dropWhile isBlank

/-- The rest after the end of a line, if there is one. -/
def endOfLine? : List Char → Option (List Char)
  | '\n' :: cs => some cs
  | '\r' :: '\n' :: cs => some cs
  | _ => none

/-- The rest after blanks and a comment. -/
def skipComment (cs : List Char) : List Char :=
  match skipBlanks cs with
  | '#' :: rest => rest.dropWhile isVisible
  | rest => rest

/-- The rest after blanks, comments and ends of lines. -/
def skipGap (comment : Bool) : List Char → List Char
  | '\n' :: cs => skipGap false cs
  | '\r' :: '\n' :: cs => skipGap false cs
  | c :: cs =>
    if comment then if isVisible c then skipGap true cs else c :: cs
    else if isBlank c then skipGap false cs
    else if c = '#' then skipGap true cs
    else c :: cs
  | [] => []

/-! ### Quoted texts -/

/-- The value of a hexadecimal digit. -/
def hexValue? (c : Char) : Option Nat :=
  if '0' ≤ c ∧ c ≤ '9' then some (c.toNat - '0'.toNat)
  else if 'a' ≤ c ∧ c ≤ 'f' then some (c.toNat - 'a'.toNat + 10)
  else if 'A' ≤ c ∧ c ≤ 'F' then some (c.toNat - 'A'.toNat + 10)
  else none

/-- The character with the given hexadecimal digits. -/
def escaped? (digits : List Char) : Option Char := do
  let n ← digits.foldlM (fun n c => (hexValue? c).map (n * 16 + ·)) 0
  if n.isValidChar then some (Char.ofNat n) else none

/-- What a backslash and one letter stand for. -/
def letterEscape? : Char → Option Char
  | 'b' => some '\x08'
  | 't' => some '\t'
  | 'n' => some '\n'
  | 'f' => some '\x0c'
  | 'r' => some '\r'
  | '"' => some '"'
  | '\\' => some '\\'
  | _ => none

/-- A text in front of others. -/
def prepend (c : Char) (text : List Char × List Char) : List Char × List Char :=
  (c :: text.1, text.2)

/-- The rest of a text between double quotes, on one line. -/
def basicText? : List Char → Option (List Char × List Char)
  | '"' :: cs => some ([], cs)
  | '\\' :: 'u' :: a :: b :: c :: d :: cs => do
    return prepend (← escaped? [a, b, c, d]) (← basicText? cs)
  | '\\' :: 'U' :: a :: b :: c :: d :: e :: f :: g :: h :: cs => do
    return prepend (← escaped? [a, b, c, d, e, f, g, h]) (← basicText? cs)
  | '\\' :: c :: cs => do return prepend (← letterEscape? c) (← basicText? cs)
  | c :: cs => if isVisible c then (basicText? cs).map (prepend c) else none
  | [] => none

/-- The rest of a text between single quotes, on one line. -/
def literalText? : List Char → Option (List Char × List Char)
  | '\'' :: cs => some ([], cs)
  | c :: cs => if isVisible c then (literalText? cs).map (prepend c) else none
  | [] => none

/-- The rest of a text between triple double quotes. A backslash at the end of a line swallows all
blanks and line ends up to the next visible character; while this goes on, `swallow` is set. -/
def longBasicText? (swallow : Bool) : List Char → Option (List Char × List Char)
  | '"' :: '"' :: '"' :: '"' :: '"' :: cs => some (['"', '"'], cs)
  | '"' :: '"' :: '"' :: '"' :: cs => some (['"'], cs)
  | '"' :: '"' :: '"' :: cs => some ([], cs)
  | '\\' :: 'u' :: a :: b :: c :: d :: cs => do
    return prepend (← escaped? [a, b, c, d]) (← longBasicText? false cs)
  | '\\' :: 'U' :: a :: b :: c :: d :: e :: f :: g :: h :: cs => do
    return prepend (← escaped? [a, b, c, d, e, f, g, h]) (← longBasicText? false cs)
  | '\\' :: c :: cs =>
    match letterEscape? c with
    | some e => (longBasicText? false cs).map (prepend e)
    | none =>
      if (endOfLine? (skipBlanks (c :: cs))).isSome then longBasicText? true cs else none
  | '\r' :: '\n' :: cs =>
    if swallow then longBasicText? true cs else (longBasicText? false cs).map (prepend '\n')
  | '\n' :: cs =>
    if swallow then longBasicText? true cs else (longBasicText? false cs).map (prepend '\n')
  | c :: cs =>
    if swallow && isBlank c then longBasicText? true cs
    else if isVisible c then (longBasicText? false cs).map (prepend c)
    else none
  | [] => none

/-- The rest of a text between triple single quotes. -/
def longLiteralText? : List Char → Option (List Char × List Char)
  | '\'' :: '\'' :: '\'' :: '\'' :: '\'' :: cs => some (['\'', '\''], cs)
  | '\'' :: '\'' :: '\'' :: '\'' :: cs => some (['\''], cs)
  | '\'' :: '\'' :: '\'' :: cs => some ([], cs)
  | '\r' :: '\n' :: cs => (longLiteralText? cs).map (prepend '\n')
  | '\n' :: cs => (longLiteralText? cs).map (prepend '\n')
  | c :: cs => if isVisible c then (longLiteralText? cs).map (prepend c) else none
  | [] => none

/-- A long text starts after the end of the line on which it is opened. -/
def openLong (cs : List Char) : List Char :=
  (endOfLine? cs).getD cs

/-- A quoted text at the start. -/
def quotedText? : List Char → Option (List Char × List Char)
  | '"' :: '"' :: '"' :: cs => longBasicText? false (openLong cs)
  | '\'' :: '\'' :: '\'' :: cs => longLiteralText? (openLong cs)
  | '"' :: cs => basicText? cs
  | '\'' :: cs => literalText? cs
  | _ => none

/-! ### Keys -/

/-- Whether a key that is not quoted may hold `c`. -/
def isBare (c : Char) : Bool :=
  c.isAlphanum || c == '-' || c == '_'

/-- A key at the start. -/
def key? : List Char → Option (String × List Char)
  | '"' :: cs => (basicText? cs).map fun (text, rest) => (String.ofList text, rest)
  | '\'' :: cs => (literalText? cs).map fun (text, rest) => (String.ofList text, rest)
  | cs =>
    match cs.takeWhile isBare with
    | [] => none
    | word => some (String.ofList word, cs.dropWhile isBare)

/-- A path has fewer keys than this, and fewer arrays and tables lie in one another. -/
def levels : Nat := 80

/-- Keys with points between them. -/
def keys? (cs : List Char) : Option (List String × List Char) :=
  match key? cs with
  | none => none
  | some (key, rest) =>
    match skipBlanks rest with
    | '.' :: more =>
      if _h : (skipBlanks more).length < cs.length then
        (keys? (skipBlanks more)).map fun (keys, rest) => (key :: keys, rest)
      else none
    | rest => some ([key], rest)
termination_by cs.length

/-- Keys with points between them, fewer than `levels`. -/
def path? (cs : List Char) : Option (List String × List Char) :=
  (keys? cs).filter fun (keys, _) => keys.length < levels

/-! ### Words -/

/-- Whether `c` may stand in a number, a truth value or a moment. -/
def isWordPart (c : Char) : Bool :=
  c.isAlphanum || c == '+' || c == '-' || c == '_' || c == '.' || c == ':'

/-- Digits without the underscores between them: one after the other, none at an end. -/
def digits? (isDigit : Char → Bool) : List Char → Option (List Char)
  | [] => none
  | [c] => if isDigit c then some [c] else none
  | c :: '_' :: cs => if isDigit c then (digits? isDigit cs).map (c :: ·) else none
  | c :: cs => if isDigit c then (digits? isDigit cs).map (c :: ·) else none

/-- A sign at the start, and whether it is negative. -/
def sign : List Char → Bool × List Char
  | '-' :: cs => (true, cs)
  | '+' :: cs => (false, cs)
  | cs => (false, cs)

/-- Digits in base ten without a zero in front of others. -/
def wholeDigits? (cs : List Char) : Option (List Char) :=
  (digits? Char.isDigit cs).filter fun ds => ds.length = 1 || ds.head? != some '0'

/-- The number with the given digits. -/
def ofDigits (base : Nat) (digits : List Char) : Nat :=
  digits.foldl (fun n c => n * base + (hexValue? c).getD 0) 0

/-- Whether an integer fits 64 bits. -/
def fits (n : Int) : Bool :=
  -(Nat.pow 2 63 : Int) ≤ n && n < (Nat.pow 2 63 : Int)

/-- An integer, in base ten, sixteen, eight or two. -/
def integer? (word : List Char) : Option Int :=
  let value : Option Int := match word with
    | '0' :: 'x' :: cs => (digits? (fun c => (hexValue? c).isSome) cs).map fun ds => ofDigits 16 ds
    | '0' :: 'o' :: cs => (digits? (fun c => '0' ≤ c && c ≤ '7') cs).map fun ds => ofDigits 8 ds
    | '0' :: 'b' :: cs => (digits? (fun c => c == '0' || c == '1') cs).map fun ds => ofDigits 2 ds
    | cs =>
      let (negative, cs) := sign cs
      (wholeDigits? cs).map fun ds => if negative then -(ofDigits 10 ds : Int) else ofDigits 10 ds
  value.filter fits

/-- A number with a fraction, an exponent or both: its literal without underscores. -/
def decimal? (word : List Char) : Option Json.Number.Literal := do
  let (negative, cs) := sign word
  let isMark (c : Char) : Bool := c == 'e' || c == 'E'
  let mantissa := cs.takeWhile fun c => !isMark c
  let power ← match cs.dropWhile (fun c => !isMark c) with
    | [] => some none
    | _ :: cs =>
      let (down, cs) := sign cs
      (digits? Char.isDigit cs).map fun ds => some (down, ds)
  let whole ← wholeDigits? (mantissa.takeWhile (· != '.'))
  let fraction ← match mantissa.dropWhile (· != '.') with
    | [] => some none
    | _ :: cs => (digits? Char.isDigit cs).map some
  guard (fraction.isSome || power.isSome)
  return ⟨negative, whole, fraction, power⟩

/-- Whether a word is an infinity or no number at all. -/
def isSpecial (word : List Char) : Bool :=
  let (_, cs) := sign word
  cs == ['i', 'n', 'f'] || cs == ['n', 'a', 'n']

/-! ### Moments -/

/-- Two digits that stand for a number from `low` to `high`. -/
def isBetween (low high : Nat) (a b : Char) : Bool :=
  a.isDigit && b.isDigit && low ≤ ofDigits 10 [a, b] && ofDigits 10 [a, b] ≤ high

/-- The number of days of a month. -/
def daysOf (year month : Nat) : Nat :=
  if month = 2 then
    if year % 4 = 0 && (year % 100 != 0 || year % 400 = 0) then 29 else 28
  else if month = 4 || month = 6 || month = 9 || month = 11 then 30
  else 31

/-- The rest after a date. -/
def date? : List Char → Option (List Char)
  | a :: b :: c :: d :: '-' :: e :: f :: '-' :: g :: h :: cs =>
    if [a, b, c, d].all Char.isDigit && isBetween 1 12 e f &&
        isBetween 1 (daysOf (ofDigits 10 [a, b, c, d]) (ofDigits 10 [e, f])) g h then some cs
    else none
  | _ => none

/-- The rest after a time of day. -/
def time? : List Char → Option (List Char)
  | a :: b :: ':' :: c :: d :: ':' :: e :: f :: cs =>
    if isBetween 0 23 a b && isBetween 0 59 c d && isBetween 0 60 e f then
      match cs with
      | '.' :: g :: more => if g.isDigit then some (more.dropWhile Char.isDigit) else none
      | cs => some cs
    else none
  | _ => none

/-- Whether characters are nothing or the offset of a time zone. -/
def isOffset : List Char → Bool
  | [] | ['Z'] | ['z'] => true
  | [s, a, b, ':', c, d] => (s == '+' || s == '-') && isBetween 0 23 a b && isBetween 0 59 c d
  | _ => false

/-- Whether a word is a date, a time of day, or both with a letter or a blank between them. -/
def isMoment (word : List Char) : Bool :=
  match date? word with
  | some [] => true
  | some (c :: cs) =>
    (c == 'T' || c == 't' || c == ' ') &&
      (match time? cs with
        | some rest => isOffset rest
        | none => false)
  | none => time? word == some []

/-- The word at the start, and the rest. A date takes a time of day behind one blank with it. -/
def word (cs : List Char) : List Char × List Char :=
  let first := cs.takeWhile isWordPart
  let rest := cs.dropWhile isWordPart
  match rest with
  | ' ' :: c :: more =>
    if date? first = some [] && c.isDigit then
      (first ++ ' ' :: (c :: more).takeWhile isWordPart, (c :: more).dropWhile isWordPart)
    else (first, rest)
  | _ => (first, rest)

end ReactiveSpace.Toml
