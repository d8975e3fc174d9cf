import ReactiveSpace.Text.Blank

/-!
# Writing source

A `Writer` holds the source so far and the depth of indentation. Generated source is first a tree of
`Code`: lines, snippets of the user, and blocks around more code. Writing a tree opens and closes
every block in turn, so it leaves the depth as it was and only ever appends.
-/

namespace ReactiveSpace

/-- The source so far, and the depth of the next line. -/
structure Writer where
  text : String := ""
  depth : Nat := 0
deriving DecidableEq, Inhabited

namespace Writer

/-- The indentation of one level. -/
def indent : String := "    "

/-- Writes one line at the current depth; an empty line is not indented. -/
def line (w : Writer) (text : String) : Writer :=
  if text.isEmpty then { w with text := w.text ++ "\n" }
  else { w with text := w.text ++ String.join (List.replicate w.depth indent) ++ text ++ "\n" }

/-- Writes an empty line. -/
def blank (w : Writer) : Writer :=
  { w with text := w.text ++ "\n" }

/-- Writes the header and an opening brace, and indents. -/
def openBlock (w : Writer) (header : String) : Writer :=
  let w := w.line (if header.isEmpty then "\x7b" else header ++ " \x7b")
  { w with depth := w.depth + 1 }

/-- Goes one level up, unless there is none, and writes a closing brace and the suffix. -/
def closeWith (w : Writer) (suffix : String) : Writer :=
  ({ w with depth := w.depth - 1 } : Writer).line ("\x7d" ++ suffix)

/-- Goes one level up and writes a closing brace. -/
def closeBlock (w : Writer) : Writer :=
  w.closeWith ""

/-- Closes a block and opens another one on the same line. -/
def reopen (w : Writer) (header : String) : Writer :=
  let w := w.closeWith (" " ++ header ++ " \x7b")
  { w with depth := w.depth + 1 }

/-- The lines of a snippet: empty lines at its ends and blanks at the ends of its lines are
dropped. -/
def snippetLines (text : String) : List String :=
  let body := Text.trimBy (· == '\n') text
  if body.isEmpty then [] else (Text.lines body).map Text.trimEnd

/-- Writes the lines of a snippet, each at the current depth. -/
def snippet (w : Writer) (text : String) : Writer :=
  (snippetLines text).foldl line w

end Writer

/-- Generated source, as a tree. -/
inductive Code where
  | line (text : String)
  | blank
  /-- Source of the user. -/
  | snippet (text : String)
  /-- A block; the suffix follows its closing brace. -/
  | block (header : String) (body : List Code) (suffix : String)
  /-- A condition with both its branches. -/
  | branch (header : String) (yes no : List Code)

namespace Code

/-- A block without a suffix. -/
def nest (header : String) (body : List Code) : Code :=
  .block header body ""

mutual

/-- Writes one piece of code. -/
def write (w : Writer) : Code → Writer
  | .line text => w.line text
  | .blank => w.blank
  | .snippet text => w.snippet text
  | .block header body suffix => (writeAll (w.openBlock header) body).closeWith suffix
  | .branch header yes no =>
    (writeAll ((writeAll (w.openBlock header) yes).reopen "else") no).closeBlock

/-- Writes pieces of code one after the other. -/
def writeAll (w : Writer) : List Code → Writer
  | [] => w
  | c :: cs => writeAll (write w c) cs

end

/-- The source that code stands for. -/
def source (code : List Code) : String :=
  (writeAll {} code).text

end Code

end ReactiveSpace
