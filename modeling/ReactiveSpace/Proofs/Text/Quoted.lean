import Mathlib.Data.Nat.Digits.Defs
import ReactiveSpace.Proofs.Json.Scanning
import ReactiveSpace.Text.Quoted

/-!
# Reading quoted literals

`unquote?` is the text that a string literal of the target source denotes. It knows the escapes of
one letter and code points of one to six hexadecimal digits. What `quote` writes for a text denotes
this text (`unquote?_quote`).

The reader takes one character at a time. From the inside of a literal, what is written for a
character gives this character and leads back to the inside (`readFrom?_quoteChar`).
-/

namespace ReactiveSpace.Text

open Json.Token (hexValue? hexValue?_digitChar)

/-- Where the reader of a literal stands. -/
inductive Place where
  /-- In front of the opening quote. -/
  | before
  /-- Between the quotes. -/
  | inside
  /-- After a backslash. -/
  | escape
  /-- After a backslash and the letter of code points. -/
  | code
  /-- After some digits of a code point. -/
  | digits (count value : Nat)
  /-- After the closing quote. -/
  | after

/-- The character that a letter after a backslash stands for. -/
def unescape? : Char → Option Char
  | '"' => some '"'
  | '\'' => some '\''
  | '\\' => some '\\'
  | 'n' => some '\n'
  | 'r' => some '\r'
  | 't' => some '\t'
  | '0' => some '\x00'
  | _ => none

/-- One character: the characters that end with it, and where the reader stands then. -/
def Place.step? (p : Place) (c : Char) : Option (List Char × Place) :=
  match p with
  | .before => if c = '"' then some ([], .inside) else none
  | .inside =>
    if c = '"' then some ([], .after)
    else if c = '\\' then some ([], .escape)
    else if c = '\r' then none
    else some ([c], .inside)
  | .escape =>
    if c = 'u' then some ([], .code)
    else (unescape? c).map fun d => ([d], .inside)
  | .code => if c = '\x7b' then some ([], .digits 0 0) else none
  | .digits count value =>
    if c = '\x7d' then
      if 0 < count ∧ value.isValidChar then some ([Char.ofNat value], .inside) else none
    else if count < 6 then
      (hexValue? c).map fun digit => ([], .digits (count + 1) (value * 16 + digit))
    else none
  | .after => none

/-- What is read from a place on, if the literal ends with the last character. -/
def readFrom? : Place → List Char → Option (List Char)
  | .after, [] => some []
  | _, [] => none
  | p, c :: cs =>
    match p.step? c with
    | some (found, next) => (readFrom? next cs).map (found ++ ·)
    | none => none

/-- The text that a literal denotes. -/
def unquote? (literal : String) : Option String :=
  (readFrom? .before literal.toList).map String.ofList

/-- One step gives the first characters, and the rest is read from where it led. -/
theorem readFrom?_cons {p next : Place} {c : Char} {found : List Char}
    (h : p.step? c = some (found, next)) (cs : List Char) :
    readFrom? p (c :: cs) = (readFrom? next cs).map (found ++ ·) := by
  rw [readFrom?, h]

theorem readFrom?_cons_nil {p next : Place} {c : Char} (h : p.step? c = some ([], next))
    (cs : List Char) : readFrom? p (c :: cs) = readFrom? next cs := by
  rw [readFrom?_cons h]
  exact Option.map_id_apply

/-! ### Code points -/

theorem step?_digitChar {count d : Nat} (value : Nat) (hcount : count < 6) (hd : d < 16) :
    (Place.digits count value).step? (Nat.digitChar d) =
      some ([], .digits (count + 1) (value * 16 + d)) := by
  have hbrace : ∀ d < 16, Nat.digitChar d ≠ '\x7d' := by decide
  rw [Place.step?, if_neg (hbrace d hd), if_pos hcount, hexValue?_digitChar d hd, Option.map_some]

/-- The last digit is the remainder, and the others are those of the quotient. -/
theorem hexDigits_eq_if (n : Nat) :
    hexDigits n =
      if n < 16 then [Nat.digitChar n] else hexDigits (n / 16) ++ [Nat.digitChar (n % 16)] :=
  Nat.toDigits_eq_if (by decide)

/-- The reader adds up the digits of a number. -/
theorem readFrom?_hexDigits {n : Nat} (h : (hexDigits n).length ≤ 6) (rest : List Char) :
    readFrom? (.digits 0 0) (hexDigits n ++ rest) =
      readFrom? (.digits (hexDigits n).length n) rest := by
  induction n using Nat.strongRecOn generalizing rest with
  | ind n ih =>
    rw [hexDigits_eq_if] at h ⊢
    split
    · rename_i hlt
      have hstep : (Place.digits 0 0).step? (Nat.digitChar n) =
          some ([], .digits 1 (0 * 16 + n)) := step?_digitChar 0 (by decide) hlt
      rw [Nat.zero_mul, Nat.zero_add] at hstep
      exact readFrom?_cons_nil hstep rest
    · rename_i hge
      rw [if_neg hge, List.length_append, List.length_singleton] at h
      have hstep := step?_digitChar (n / 16) h (Nat.mod_lt n (by decide))
      rw [Nat.div_add_mod'] at hstep
      rw [List.append_assoc, ih (n / 16) (by omega) (Nat.le_of_succ_le h), List.length_append]
      exact readFrom?_cons_nil hstep rest

theorem length_hexDigits (c : Char) : (hexDigits c.toNat).length ≤ 6 := by
  have hvalid : c.toNat < 0xD800 ∨ (0xDFFF < c.toNat ∧ c.toNat < 0x110000) := c.valid
  exact Nat.toDigits_length 16 c.toNat 6 (by decide) (by omega)

/-- A character that is written by its code point is read. -/
theorem readFrom?_code (c : Char) (rest : List Char) :
    readFrom? .inside (['\\', 'u', '\x7b'] ++ hexDigits c.toNat ++ ['\x7d'] ++ rest) =
      (readFrom? .inside rest).map (c :: ·) := by
  have hbackslash : Place.inside.step? '\\' = some ([], .escape) := rfl
  have hletter : Place.escape.step? 'u' = some ([], .code) := rfl
  have hopen : Place.code.step? '\x7b' = some ([], .digits 0 0) := rfl
  have hlength : 0 < (hexDigits c.toNat).length := List.length_pos_iff.2 Nat.toDigits_ne_nil
  have hclose : (Place.digits (hexDigits c.toNat).length c.toNat).step? '\x7d' =
      some ([c], .inside) := by
    rw [Place.step?, if_pos rfl, if_pos ⟨hlength, c.valid⟩, Char.ofNat_toNat]
  rw [List.append_assoc, List.append_assoc, List.cons_append, List.cons_append, List.cons_append,
    readFrom?_cons_nil hbackslash, readFrom?_cons_nil hletter, readFrom?_cons_nil hopen,
    List.nil_append, readFrom?_hexDigits (length_hexDigits c), List.singleton_append,
    readFrom?_cons hclose]
  rfl

/-! ### Literals -/

/-- A character is read from what a literal holds for it. -/
theorem readFrom?_quoteChar (c : Char) (rest : List Char) :
    readFrom? .inside (quoteChar c ++ rest) = (readFrom? .inside rest).map (c :: ·) := by
  -- Two steps over a backslash and a letter, where the letter stands for the character.
  have hescape {letter d : Char} (hletter : Place.escape.step? letter = some ([d], .inside)) :
      readFrom? .inside (['\\', letter] ++ rest) = (readFrom? .inside rest).map (d :: ·) := by
    have hbackslash : Place.inside.step? '\\' = some ([], .escape) := rfl
    rw [List.cons_append, readFrom?_cons_nil hbackslash, List.singleton_append,
      readFrom?_cons hletter]
    rfl
  unfold quoteChar
  split
  iterate 5 exact hescape rfl
  rename_i hquote hbackslash _ hreturn _
  split
  · rename_i hzero
    have hc : c = '\x00' := Char.toNat_inj.1 hzero
    rw [hc]
    exact hescape rfl
  · split
    · have hstep : Place.inside.step? c = some ([c], .inside) := by
        rw [Place.step?, if_neg hquote, if_neg hbackslash, if_neg hreturn]
      rw [List.singleton_append, readFrom?_cons hstep]
      rfl
    · exact readFrom?_code c rest

/-- What was quoted is read character by character. -/
theorem readFrom?_flatMap_quoteChar (cs rest : List Char) :
    readFrom? .inside (cs.flatMap quoteChar ++ rest) = (readFrom? .inside rest).map (cs ++ ·) := by
  induction cs with
  | nil => exact Option.map_id_apply.symm
  | cons c cs ih =>
    rw [List.flatMap_cons, List.append_assoc, readFrom?_quoteChar, ih, Option.map_map]
    rfl

/-- A quoted text denotes this text. -/
theorem unquote?_quote (text : String) : unquote? (quote text) = some text := by
  have hopen : Place.before.step? '"' = some ([], .inside) := rfl
  have hclose : readFrom? .inside ['"'] = some [] := rfl
  rw [unquote?, quote, String.toList_ofList, readFrom?_cons_nil hopen,
    readFrom?_flatMap_quoteChar, hclose, Option.map_some, Option.map_some, List.append_nil,
    String.ofList_toList]

end ReactiveSpace.Text
