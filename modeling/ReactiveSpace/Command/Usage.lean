import ReactiveSpace.Command.Arguments

/-!
# Help

The help about a topic is a page: what the topic is about, how it is called, and lists of commands,
operands and options. The entries of a list have their explanations in one column, unless that
column would start beyond two fifths of the page and an explanation would not fit behind it; then
each explanation stands on a line of its own.
-/

namespace ReactiveSpace.Command

/-- The name of the program. -/
def programName : String := "livedoc-gen"

/-- The version of the program. -/
def programVersion : String := "0.3.0"

/-! ### Lists -/

/-- An entry of a list. -/
structure Entry where
  /-- What is explained. -/
  term : String
  about : String := ""
  /-- A remark behind the explanation. -/
  remark : String := ""
deriving DecidableEq

namespace Entry

/-- The explanation with its remark. -/
def explanation (e : Entry) : String :=
  if e.remark.isEmpty then e.about else e.about ++ " " ++ e.remark

/-- What stands for the value of an option: its name in capitals, with underscores for dashes. -/
def placeholder (flag : Flag) : String :=
  String.ofList (flag.name.toList.map fun c => if c = '-' then '_' else c.toUpper)

/-- The entry of an option, with room for a letter. -/
def ofFlag (flag : Flag) (about remark : String) : Entry where
  term :=
    (match flag.letter with
      | some c => String.ofList ['-', c, ',', ' ']
      | none => "    ") ++
    "--" ++ flag.name ++ (if flag.takesValue then " <" ++ placeholder flag ++ ">" else "")
  about := about
  remark := remark

end Entry

/-- The width of a page. -/
def pageWidth : Nat := 100

/-- The length of the longest term. -/
def termWidth (entries : List Entry) : Nat :=
  entries.foldl (fun w e => max w e.term.length) 2

/-- Whether the explanations stand on lines of their own. -/
def isStacked (entries : List Entry) : Bool :=
  let column := termWidth entries + 4
  2 * pageWidth < 5 * column &&
    entries.any fun e => pageWidth < column + e.about.length + e.remark.length

/-- Blanks. -/
def blanks (n : Nat) : String :=
  String.ofList (List.replicate n ' ')

/-- The text of an entry. -/
def entryText (stacked : Bool) (width : Nat) (e : Entry) : String :=
  if stacked then "  " ++ e.term ++ "\n" ++ blanks 10 ++ e.explanation ++ "\n"
  else "  " ++ e.term ++ blanks (width + 2 - e.term.length) ++ e.explanation ++ "\n"

/-- A list under its title; an empty list has no text. -/
def listText (title : String) (entries : List Entry) : Option String :=
  if entries.isEmpty then none
  else
    some (title ++ ":\n" ++
      String.join (entries.map (entryText (isStacked entries) (termWidth entries))))

/-! ### Topics -/

namespace Topic

/-- What a topic is about. -/
def about : Topic → String
  | .program => "Reactive document compiler - check, generate, build and test spaces"
  | .check => "Type-check declarations and report every diagnostic"
  | .generate => "Generate the unit source"
  | .reflect => "Emit the reflection schema"
  | .build => "Compile and bind the unit, then print its configuration"
  | .test => "Compile the unit and run its embedded tests"
  | .help => "Print this message or the help of the given subcommand(s)"

/-- How a topic is called. -/
def usage : Topic → String
  | .program => programName ++ " [OPTIONS] <COMMAND>"
  | .help => programName ++ " help [COMMAND]..."
  | t => programName ++ " " ++ t.name ++ " [OPTIONS] <INPUT>"

/-- The commands below a topic. -/
def subtopics : Topic → List Entry
  | .program => commands.map fun t => ⟨t.name, t.about, ""⟩
  | _ => []

/-- The operands of a topic. -/
def operands : Topic → List Entry
  | .program => []
  | .check => [⟨"<INPUT>", "Declarations file (JSON)", ""⟩]
  | .help => [⟨"[COMMAND]...", "Print help for the subcommand(s)", ""⟩]
  | _ => [⟨"<INPUT>", "", ""⟩]

/-- The explanation of an option of a topic. -/
def explain (topic : Topic) (flag : Flag) : Entry :=
  if flag = logLevel then
    .ofFlag flag "Log level (trace, debug, info, warn, error)" "[default: info]"
  else if flag = asJson then .ofFlag flag "Print the report as JSON" ""
  else if flag = askHelp then .ofFlag flag "Print help" ""
  else if flag = askVersion then .ofFlag flag "Print version" ""
  else if flag = output && topic = .generate then
    .ofFlag flag "Output file (stdout when omitted)" ""
  else if flag = toolchainFile && topic = .build then
    .ofFlag flag "Compiler configuration (TOML)" ""
  else .ofFlag flag "" ""

/-- The help about a topic. -/
def page (t : Topic) : String :=
  let lists := [listText "Commands" t.subtopics, listText "Arguments" t.operands,
    listText "Options" ((t.flags ++ t.questions).map t.explain)]
  "\n".intercalate ([t.about ++ "\n", "Usage: " ++ t.usage ++ "\n"] ++ lists.filterMap id)

end Topic

/-- The line that gives the version. -/
def versionText : String :=
  programName ++ " " ++ programVersion ++ "\n"

end ReactiveSpace.Command
