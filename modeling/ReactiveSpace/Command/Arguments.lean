import ReactiveSpace.Keyed

/-!
# Arguments of the command line

The commands of the command line, the options they take, and how arguments are read. Arguments are
read from left to right, and the first of them that is wrong, or that asks for help or for the
version, decides: `Request.ofArguments?` is `none` when it is wrong.
-/

namespace ReactiveSpace

/-- A command. -/
inductive Command where
  /-- Checks declarations and prints what is wrong with them. -/
  | check (input : String)
  /-- Writes the source of the unit. -/
  | generate (input : String) (output : Option String)
  /-- Writes the reflection. -/
  | reflect (input : String) (output : Option String)
  /-- Builds the unit and prints its settings. -/
  | build (input : String) (toolchain : Option String)
  /-- Builds the unit and runs its tests. -/
  | test (input : String) (toolchain : Option String) (json : Bool)
deriving DecidableEq

namespace Command

/-! ### Options -/

/-- An option of a command. -/
structure Flag where
  /-- The letter, if it has one. -/
  letter : Option Char := none
  name : String
  /-- Whether a value follows. -/
  takesValue : Bool := true
  /-- Whether the value may be empty. -/
  mayBeEmpty : Bool := false
deriving DecidableEq

/-- How much is logged; every command takes it. -/
def logLevel : Flag := { name := "log-level", mayBeEmpty := true }

/-- Where the output goes. -/
def output : Flag := { letter := some 'o', name := "output" }

/-- Where the toolchain is described. -/
def toolchainFile : Flag := { letter := some 'c', name := "compiler-config" }

/-- Whether a report is written as a value. -/
def asJson : Flag := { name := "json", takesValue := false }

/-- Asks for help. -/
def askHelp : Flag := { letter := some 'h', name := "help", takesValue := false }

/-- Asks for the version. -/
def askVersion : Flag := { letter := some 'V', name := "version", takesValue := false }

/-- What the help is about. -/
inductive Topic where
  /-- The program as a whole. -/
  | program
  | check
  | generate
  | reflect
  | build
  | test
  /-- The help itself. -/
  | help
deriving DecidableEq

namespace Topic

/-- The commands, help included, in the order in which they are listed. -/
def commands : List Topic := [.check, .generate, .reflect, .build, .test, .help]

/-- The name of a command; the program as a whole has none. -/
def name : Topic → String
  | .program => ""
  | .check => "check"
  | .generate => "generate"
  | .reflect => "reflect"
  | .build => "build"
  | .test => "test"
  | .help => "help"

/-- The command with the given name. -/
def ofName? (name : String) : Option Topic :=
  commands.find? fun t => t.name == name

/-- The options of a command besides those that ask for something else. -/
def flags : Topic → List Flag
  | .program => [logLevel]
  | .check => [logLevel]
  | .generate => [logLevel, output]
  | .reflect => [logLevel, output]
  | .build => [toolchainFile, logLevel]
  | .test => [toolchainFile, logLevel, asJson]
  | .help => []

/-- The options that ask for something else: only the program as a whole has a version, and the
help has no help of its own. -/
def questions : Topic → List Flag
  | .program => [askHelp, askVersion]
  | .help => []
  | _ => [askHelp]

end Topic

/-! ### Reading -/

/-- Why the reading of arguments ends early. -/
inductive Halt where
  /-- An argument is wrong. -/
  | refused
  /-- An argument asks a question. -/
  | asked (question : Flag)
deriving DecidableEq

/-- Arguments that have been read. -/
structure Arguments where
  /-- The options with their values, which are empty for options without one. -/
  options : List (String × String) := []
  /-- The argument that is no option. -/
  operand : Option String := none
  /-- Whether the option before the name of the command is wrong. -/
  spoiled : Bool := false

/-- The value of an option, if it is set. -/
def Arguments.get? (a : Arguments) (flag : Flag) : Option String :=
  Keyed.get? flag.name a.options

/-- Sets an option, unless it is set or its value may not be empty. -/
def Arguments.set (a : Arguments) (flag : Flag) (value : String) : Except Halt Arguments :=
  if (a.get? flag).isSome then .error .refused
  else if flag.takesValue && value.isEmpty && !flag.mayBeEmpty then .error .refused
  else .ok { a with options := a.options ++ [(flag.name, value)] }

/-- Takes an operand, unless it is empty or there is one. -/
def Arguments.setOperand (a : Arguments) (text : String) : Except Halt Arguments :=
  if a.operand.isSome || text.isEmpty then .error .refused
  else .ok { a with operand := some text }

/-- Whether an argument has the form of an option. -/
def looksLikeOption (text : String) : Bool :=
  match text.toList with
  | '-' :: _ :: _ => true
  | _ => false

/-- A long option with the value behind its equals sign, if there is one. -/
def longOption (cs : List Char) : String × Option String :=
  let name := String.ofList (cs.takeWhile (· != '='))
  match cs.dropWhile (· != '=') with
  | _ :: value => (name, some (String.ofList value))
  | [] => (name, none)

/-- The value behind the letter of an option: an equals sign in front of it does not count. -/
def attachedValue : List Char → Option String
  | [] => none
  | '=' :: cs => some (String.ofList cs)
  | cs => some (String.ofList cs)

/-- The option that an argument names, with the value attached to it. -/
def findFlag? (flags : List Flag) (text : String) : Option (Flag × Option String) :=
  match text.toList with
  | '-' :: '-' :: cs =>
    let (name, value) := longOption cs
    (flags.find? fun f => f.name == name).map fun f => (f, value)
  | '-' :: c :: cs =>
    (flags.find? fun f => f.letter == some c).map fun f => (f, attachedValue cs)
  | _ => none

/-- The question that an argument asks: by its name alone, or by its letter with anything behind
it. -/
def question? (topic : Topic) (text : String) : Option Flag :=
  match text.toList with
  | '-' :: '-' :: cs => topic.questions.find? fun f => f.name == String.ofList cs
  | '-' :: c :: _ => topic.questions.find? fun f => f.letter == some c
  | _ => none

/-- Reads the arguments of a command up to the end, and those of the program as a whole up to the
first operand; what is left is given back. After two dashes all is operands; the program as a whole
has none there. A wrong value of an option counts when the next argument is looked at, so that right
before the name of a command it only spoils what was read. -/
def readArguments (topic : Topic) (a : Arguments) :
    List String → Except Halt (Arguments × List String)
  | [] => .ok (a, [])
  | text :: rest =>
    if text = "--" then
      if topic = .program then .error .refused
      else (rest.foldlM Arguments.setOperand a).map fun a => (a, [])
    else if looksLikeOption text then
      match question? topic text with
      | some question => .error (.asked question)
      | none =>
        match findFlag? topic.flags text, rest with
        | some (flag, some value), rest =>
          if flag.takesValue then
            match a.set flag value with
            | .ok a => readArguments topic a rest
            | .error halt => .error halt
          else .error .refused
        | some (flag, none), next :: more =>
          if flag.takesValue then
            if looksLikeOption next then .error .refused
            else
              match a.set flag next with
              | .ok a => readArguments topic a more
              | .error halt =>
                if topic = .program && (more.head?.any fun name => !looksLikeOption name) then
                  .ok ({ a with spoiled := true }, more)
                else .error halt
          else
            match a.set flag "" with
            | .ok a => readArguments topic a (next :: more)
            | .error halt => .error halt
        | some (flag, none), [] =>
          if flag.takesValue then .error .refused
          else (a.set flag "").map fun a => (a, [])
        | none, _ => .error .refused
    else if topic = .program then .ok (a, text :: rest)
    else
      match a.setOperand text with
      | .ok a => readArguments topic a rest
      | .error halt => .error halt

/-! ### Requests -/

/-- The command that the arguments after its name make. -/
def ofArguments? (topic : Topic) (a : Arguments) : Option Command := do
  let input ← a.operand
  match topic with
  | .check => return .check input
  | .generate => return .generate input (a.get? output)
  | .reflect => return .reflect input (a.get? output)
  | .build => return .build input (a.get? toolchainFile)
  | .test => return .test input (a.get? toolchainFile) (a.get? asJson).isSome
  | _ => none

/-- What the command line is asked to do. -/
inductive Request where
  | run (command : Command)
  | help (topic : Topic)
  | version
deriving DecidableEq

namespace Request

/-- What a question about a topic asks for. -/
def ofQuestion (topic : Topic) (question : Flag) : Request :=
  if question = askVersion then .version else .help topic

/-- The help that is asked for by names. -/
def ofTopics? : List String → Option Request
  | [] => some (.help .program)
  | [name] => (Topic.ofName? name).map .help
  | _ => none

/-- Reads the arguments after the name of a command. -/
def ofCommand? (topic : Topic) (arguments : List String) : Option Request :=
  match readArguments topic {} arguments with
  | .ok (a, _) => (Command.ofArguments? topic a).map .run
  | .error (.asked question) => some (ofQuestion topic question)
  | .error .refused => none

/-- Whether a request is for a command to be carried out. -/
def isRun : Request → Bool
  | .run _ => true
  | _ => false

/-- Reads the arguments of the command line. A spoiled option of the program stops a command, but
not help about it. -/
def ofArguments? (arguments : List String) : Option Request :=
  match readArguments .program {} arguments with
  | .ok (_, []) => none
  | .ok (a, name :: rest) =>
    match Topic.ofName? name with
    | some .help => ofTopics? rest
    | some topic => (ofCommand? topic rest).filter fun request => !(a.spoiled && request.isRun)
    | none => none
  | .error (.asked question) => some (ofQuestion .program question)
  | .error .refused => none

end Request

end Command

end ReactiveSpace
