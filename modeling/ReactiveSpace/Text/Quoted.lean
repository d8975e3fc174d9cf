import ReactiveSpace.Text.Plain

/-!
# Quoted literals

`quote` writes a text as one string literal of the target source, on one line and between double
quotes. A quote and a backslash are escaped with a backslash, the controls U+0000, tab, line feed
and carriage return have letters of their own, every other character that is not plain is written
by its code point in hexadecimal, and all the rest stands for itself. An apostrophe is plain.
-/

namespace ReactiveSpace.Text

/-- The hexadecimal digits of `n`, in lower case and without leading zeros. -/
def hexDigits (n : Nat) : List Char :=
  Nat.toDigits 16 n

/-- What a quoted literal holds for the character `c`. -/
def quoteChar (c : Char) : List Char :=
  match c with
  | '"' => ['\\', '"']
  | '\\' => ['\\', '\\']
  | '\n' => ['\\', 'n']
  | '\r' => ['\\', 'r']
  | '\t' => ['\\', 't']
  | c =>
    if c.toNat = 0 then ['\\', '0']
    else if isPlain c then [c]
    else ['\\', 'u', '\x7b'] ++ hexDigits c.toNat ++ ['\x7d']

/-- The text as a string literal of the target source. -/
def quote (text : String) : String :=
  String.ofList ('"' :: (text.toList.flatMap quoteChar ++ ['"']))

end ReactiveSpace.Text
