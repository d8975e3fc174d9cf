import ReactiveSpace.Json.Parts
import ReactiveSpace.Toml.Lexeme

/-!
# Configuration files

A configuration file is a table: lines that give values to keys, under headers that name the table
or the row of a table that the lines below them belong to. No key is given twice. A table that a
header opens is not opened again, and neither headers nor keys with points reach into values.

`documentOf?` reads a file; it gives the same trees as the data format does, so that whoever decodes
a tree does not care where it was written.
-/

namespace ReactiveSpace

/-- How a table came to be. -/
inductive Toml.Origin where
  /-- A header opened it. -/
  | opened
  /-- A header of a table inside it was there first. -/
  | implied
  /-- A key with points leads into it. -/
  | dotted
deriving DecidableEq

/-- A value of a configuration file. -/
inductive Toml where
  | string (value : String)
  | integer (value : Int)
  | bool (value : Bool)
  /-- A number with a fraction or an exponent, or `none` for an infinity and for no number. -/
  | decimal (value : Option Json.Number)
  /-- A date or a time. -/
  | moment
  | array (items : List Toml)
  /-- A table written as one value, to which nothing can be added. -/
  | inline (entries : List (String × Toml))
  | table (origin : Toml.Origin) (entries : List (String × Toml))
  /-- The rows of a table, each opened by a header. -/
  | rows (all : List (List (String × Toml)))

namespace Toml

/-- The entries of a table. -/
abbrev Entries : Type := List (String × Toml)

/-! ### Adding to tables -/

/-- Changes the table at the end of a path, by headers or, when `dotted` is set, by a key with
points. Tables that are missing on the way are added. The change is given how the table came to
be. -/
def modifyAt (dotted : Bool) (change : Origin → Entries → Option Entries) :
    List String → Origin → Entries → Option Entries
  | [], origin, entries => change origin entries
  | key :: path, _, entries =>
    match Keyed.get? key entries with
    | none =>
      let origin := if dotted then Origin.dotted else .implied
      (modifyAt dotted change path origin []).map fun inner =>
        Keyed.insert key (.table origin inner) entries
    | some (.table origin inner) =>
      if dotted && origin == .opened then none
      else
        (modifyAt dotted change path origin inner).map fun inner =>
          Keyed.insert key (.table origin inner) entries
    | some (.rows all) =>
      match all.getLast? with
      | some row =>
        (modifyAt dotted change path .opened row).map fun row =>
          Keyed.insert key (.rows (all.dropLast ++ [row])) entries
      | none => none
    | some _ => none

/-- Gives a value to a key with points, in a table that came to be in the given way. -/
def addValue (path : List String) (value : Toml) (origin : Origin) (entries : Entries) :
    Option Entries :=
  match path.getLast? with
  | none => none
  | some key =>
    let way := path.dropLast
    modifyAt true (fun reached entries =>
      if !way.isEmpty && reached != .dotted then none
      else if (Keyed.get? key entries).isSome then none
      else some (Keyed.insert key value entries)) way origin entries

/-- Opens the table of a header. -/
def openTable (path : List String) (entries : Entries) : Option Entries :=
  match path.getLast? with
  | none => none
  | some key =>
    modifyAt false (fun _ entries =>
      match Keyed.get? key entries with
      | none => some (Keyed.insert key (.table .opened []) entries)
      | some (.table .implied inner) => some (Keyed.insert key (.table .opened inner) entries)
      | some _ => none) path.dropLast .opened entries

/-- Opens a new row of the table of a header. -/
def openRow (path : List String) (entries : Entries) : Option Entries :=
  match path.getLast? with
  | none => none
  | some key =>
    modifyAt false (fun _ entries =>
      match Keyed.get? key entries with
      | none => some (Keyed.insert key (.rows [[]]) entries)
      | some (.rows all) => some (Keyed.insert key (.rows (all ++ [[]])) entries)
      | some _ => none) path.dropLast .opened entries

/-! ### Values -/

/-- The value of a word. A number with a fraction or an exponent is the nearest double: below the
doubles it is minus infinity, and above them it is refused. -/
def ofWord? (word : List Char) : Option Toml :=
  if word = ['t', 'r', 'u', 'e'] then some (.bool true)
  else if word = ['f', 'a', 'l', 's', 'e'] then some (.bool false)
  else if isSpecial word then some (.decimal none)
  else if isMoment word then some .moment
  else
    match integer? word with
    | some n => some (.integer n)
    | none =>
      match decimal? word with
      | some literal =>
        if literal.nearest < Double.infinite then
          some (.decimal (some (.double ⟨literal.negative, literal.nearest⟩)))
        else if literal.negative then some (.decimal none)
        else none
      | none => none

mutual

/-- A value at the start, and the rest. It lies inside `depth` arrays and tables, and opens one more
only if these stay fewer than `levels`. -/
def value? (depth : Nat) (cs : List Char) : Option (Toml × List Char) :=
  match cs with
  | '[' :: rest =>
    if levels ≤ depth + 1 then none
    else if _h : (skipGap false rest).length ≤ rest.length then
      (items? (depth + 1) (skipGap false rest)).map fun (items, rest) => (.array items, rest)
    else none
  | '\x7b' :: rest =>
    if levels ≤ depth + 1 then none
    else
      match skipBlanks rest with
      | '\x7d' :: rest => some (.inline [], rest)
      | inner =>
        if _h : inner.length ≤ rest.length then
          (entries? (depth + 1) [] inner).map fun (entries, rest) => (.inline entries, rest)
        else none
  | '"' :: _ => (quotedText? cs).map fun (text, rest) => (.string (String.ofList text), rest)
  | '\'' :: _ => (quotedText? cs).map fun (text, rest) => (.string (String.ofList text), rest)
  | _ =>
    let (first, rest) := word cs
    (ofWord? first).map fun v => (v, rest)
termination_by (cs.length, 0)

/-- The items of an array up to its end. -/
def items? (depth : Nat) (cs : List Char) : Option (List Toml × List Char) :=
  match cs with
  | ']' :: rest => some ([], rest)
  | cs =>
    match value? depth cs with
    | none => none
    | some (v, rest) =>
      match skipGap false rest with
      | ',' :: rest =>
        if _h : (skipGap false rest).length < cs.length then
          (items? depth (skipGap false rest)).map fun (vs, rest) => (v :: vs, rest)
        else none
      | ']' :: rest => some ([v], rest)
      | _ => none
termination_by (cs.length, 1)

/-- The entries of a table that is written as one value, up to its end. -/
def entries? (depth : Nat) (entries : Entries) (cs : List Char) :
    Option (Entries × List Char) :=
  match path? cs with
  | none => none
  | some (path, rest) =>
    match skipBlanks rest with
    | '=' :: rest =>
      if _h : (skipBlanks rest).length < cs.length then
        match value? depth (skipBlanks rest) with
        | none => none
        | some (v, rest) =>
          match addValue path v .opened entries with
          | none => none
          | some entries =>
            match skipBlanks rest with
            | ',' :: rest =>
              if _h : (skipBlanks rest).length < cs.length then
                entries? depth entries (skipBlanks rest)
              else none
            | '\x7d' :: rest => some (entries, rest)
            | _ => none
      else none
    | _ => none
termination_by (cs.length, 0)

end

/-! ### Files -/

/-- A line of a file. -/
inductive Line where
  | blank
  | pair (path : List String) (value : Toml)
  | table (path : List String)
  | row (path : List String)

/-- The line at the start, without its comment, and the rest. -/
def line? (cs : List Char) : Option (Line × List Char) :=
  match skipBlanks cs with
  | '[' :: '[' :: rest =>
    match path? (skipBlanks rest) with
    | some (path, rest) =>
      match skipBlanks rest with
      | ']' :: ']' :: rest => some (.row path, rest)
      | _ => none
    | none => none
  | '[' :: rest =>
    match path? (skipBlanks rest) with
    | some (path, rest) =>
      match skipBlanks rest with
      | ']' :: rest => some (.table path, rest)
      | _ => none
    | none => none
  | [] => some (.blank, [])
  | c :: rest =>
    if c = '#' ∨ c = '\n' ∨ c = '\r' then some (.blank, c :: rest)
    else
      match path? (c :: rest) with
      | some (path, rest) =>
        match skipBlanks rest with
        | '=' :: rest => (value? 0 (skipBlanks rest)).map fun (v, rest) => (.pair path v, rest)
        | _ => none
      | none => none

/-- Carries out a line in the section that the last header opened. -/
def Line.apply (section_ : List String) (entries : Entries) :
    Line → Option (List String × Entries)
  | .blank => some (section_, entries)
  | .pair path value =>
    (modifyAt false (fun origin inner => addValue path value origin inner)
      section_ .opened entries).map fun entries => (section_, entries)
  | .table path => (openTable path entries).map fun entries => (path, entries)
  | .row path => (openRow path entries).map fun entries => (path, entries)

/-- Carries out all lines. -/
def lines? (section_ : List String) (entries : Entries) (cs : List Char) : Option Entries :=
  match line? cs with
  | none => none
  | some (line, rest) =>
    match line.apply section_ entries with
    | none => none
    | some (section_, entries) =>
      match skipComment rest with
      | [] => some entries
      | rest =>
        match endOfLine? rest with
        | some rest =>
          if _h : rest.length < cs.length then lines? section_ entries rest else none
        | none => none
termination_by cs.length

/-! ### Trees -/

mutual

/-- The tree of a value. Numbers that are none and moments can only be skipped over. -/
def toTree : Toml → Json.Tree
  | .string s => .string s
  | .integer n => .number (.integer n)
  | .bool b => .bool b
  | .decimal (some n) => .number n
  | .decimal none => .unusable
  | .moment => .unusable
  | .array items => .array (itemTrees items)
  | .inline entries => .object (entryTrees entries)
  | .table _ entries => .object (entryTrees entries)
  | .rows all => .array (rowTrees all)

/-- The trees of the items of an array. -/
def itemTrees : List Toml → List Json.Tree
  | [] => []
  | v :: vs => v.toTree :: itemTrees vs

/-- The trees of the entries of a table. -/
def entryTrees : List (String × Toml) → List (String × Json.Tree)
  | [] => []
  | (key, v) :: vs => (key, v.toTree) :: entryTrees vs

/-- The trees of the rows of a table. -/
def rowTrees : List (List (String × Toml)) → List Json.Tree
  | [] => []
  | row :: rest => .object (entryTrees row) :: rowTrees rest

end

/-- The mark that may stand before everything else. -/
def byteOrderMark : Char := '\uFEFF'

/-- Reads a file. -/
def documentOf? (text : String) : Option Json.Tree :=
  let cs := match text.toList with
    | c :: cs => if c = byteOrderMark then cs else c :: cs
    | [] => []
  (lines? [] [] cs).map fun entries => .object (entryTrees entries)

end Toml

end ReactiveSpace
