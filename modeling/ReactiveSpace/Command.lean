import ReactiveSpace.Command.Usage
import ReactiveSpace.Deployment
import ReactiveSpace.Document.TestRun

/-!
# Commands

The commands of the command line: check, generate, reflect, build and test. `Command.run` carries a
command out on a host, which reads and writes files and starts compilers, and `runArguments` does
what the arguments ask for. A failure of a space ends with the low byte of its code, any other
failure with status 1, and arguments that are wrong with status 2.
-/

namespace ReactiveSpace

namespace Command

/-! ### Running -/

/-- What commands need from the machine. -/
structure Host (m : Type → Type) (σ : Type) where
  /-- The text of a file. -/
  read : String → m (Option String)
  /-- Writes a file and answers whether that was possible. -/
  write : String → String → m Bool
  /-- Starts the program of a toolchain. -/
  launch : Launcher m σ

/-- Why a command failed. -/
inductive Failure where
  | unreadableDeclarations (path : String)
  | unreadableToolchain (path : String)
  | invalidToolchain (path : String) (error : ToolchainError)
  | unwritable (path : String)
  | space (error : SpaceError)
deriving DecidableEq

namespace Failure

/-- The failure in words. -/
def message : Failure → String
  | .unreadableDeclarations path => s!"reading declarations from {path}"
  | .unreadableToolchain path => s!"reading compiler config from {path}"
  | .invalidToolchain path error => s!"reading compiler config from {path}: " ++ error.message
  | .unwritable path => s!"writing {path}"
  | .space error => error.fullMessage

/-- The code of a failure, if a space failed. -/
def code? : Failure → Option ErrorCode
  | .space error => some error.code
  | _ => none

/-- The lines that report a failure. -/
def report (f : Failure) : String :=
  "[ERROR] " ++ f.message ++ "\n" ++
    match f.code? with
    | some code => "[ERROR] code " ++ code.text ++ "\n"
    | none => ""

/-- The status that a process ends with. -/
def exitStatus (f : Failure) : Nat :=
  match f.code? with
  | some code => code.exitStatus
  | none => 1

end Failure

/-- What a command leaves behind, besides the files it wrote. -/
structure Outcome where
  status : Nat := 0
  output : String := ""
  errors : String := ""
deriving DecidableEq, Inhabited

namespace Outcome

/-- The outcome of a failure after some output. -/
def failed (output : String) (f : Failure) : Outcome where
  status := f.exitStatus
  output := output
  errors := f.report

/-- The outcome of arguments that are wrong. -/
def usage : Outcome where
  status := 2
  errors := "Usage: " ++ Topic.program.usage ++ "\n"

end Outcome

/-- A line of output. -/
def line (text : String) : String :=
  text ++ "\n"

/-- The output of a check. -/
def checkOutcome (d : Declarations) : Outcome :=
  let checked := d.check
  if checked.isDeployable then { output := line s!"[OK] space '{d.space}' is deployable" }
  else
    .failed (String.join (checked.diagnostics.map fun e => line e.text))
      (.space (.notDeployable d.space checked.diagnostics))

/-- The settings of a factory, as a build prints them. -/
def settingsLines {m : Type → Type} {σ : Type} (f : Factory m σ) : List String :=
  let s := f.settings
  ["Space: " ++ f.space,
    "  maximum_history:      " ++ Decimal.intText s.maximumHistory,
    "  delete_on_close:      " ++ Factory.boolText s.deleteOnClose,
    "  readonly:             " ++ Factory.boolText s.readonly,
    "  frequency:            " ++ Decimal.intText s.frequency,
    "  temporal_resolution:  " ++ Decimal.intText s.temporalResolution,
    "  sweep_export_delay:   " ++ Decimal.intText s.sweepExportDelay] ++
    match f.services with
    | [] => []
    | services => "  services:" :: (Keyed.names services).map fun name => "    - " ++ name

/-- The lines about one test. -/
def caseLines (c : TestCase) : List String :=
  let mark := if c.isPassed then "PASS" else "FAIL"
  let count := Decimal.digitText c.result.assertions.toNat
  let reason := match c.outcome with
    | .aborted reason => ["       aborted: " ++ reason]
    | _ => []
  s!"[{mark}] {c.name} ({count} assertion(s), 0 ms)" :: reason ++
    c.result.failures.map fun failure => "       " ++ failure

/-- A report as text. -/
def reportText (r : TestReport) : String :=
  let passed := Decimal.digitText r.passed
  let failed := Decimal.digitText r.failed
  String.join ((r.cases.flatMap caseLines).map line) ++ "\n" ++
    line s!"{passed} passed, {failed} failed"

/-- The outcome of a run of tests. -/
def testOutcome (json : Bool) (r : TestReport) : Outcome where
  status := if r.allPassed then 0 else 1
  output := if json then line r.toJson.pretty else reportText r

variable {m : Type → Type} [Monad m] {σ : Type}

/-- Goes on with the declarations of a file. -/
def withDeclarations (host : Host m σ) (path : String) (next : Declarations → m Outcome) :
    m Outcome := do
  let text ← host.read path
  match text.bind Declarations.ofText? with
  | some d => next d
  | none => return .failed "" (.unreadableDeclarations path)

/-- Goes on with the toolchain of a file, or with the usual one. -/
def withToolchain (host : Host m σ) (path : Option String) (next : Toolchain → m Outcome) :
    m Outcome := do
  match path with
  | none => next {}
  | some path =>
    match ← host.read path with
    | none => return .failed "" (.unreadableToolchain path)
    | some text =>
      match Toolchain.ofConfiguration text with
      | .ok t => next t
      | .error e => return .failed "" (.invalidToolchain path e)

/-- Goes on with the factory of a space. -/
def withFactory (host : Host m σ) (input : String) (toolchain : Option String)
    (next : Factory m σ → m Outcome) : m Outcome :=
  withDeclarations host input fun d =>
    withToolchain host toolchain fun t => do
      match ← d.deploy (t.compiler host.launch) with
      | .ok f => next f
      | .error e => return .failed "" (.space e)

/-- Writes a text into a file, or as output with the end of a line behind it. -/
def emit (host : Host m σ) (output : Option String) (text : String) : m Outcome := do
  match output with
  | none => return { output := line text }
  | some path =>
    if ← host.write path text then return {}
    else return .failed "" (.unwritable path)

/-- Goes on with the unit that is generated from a file. -/
def withUnit (host : Host m σ) (input : String) (next : GeneratedUnit → m Outcome) : m Outcome :=
  withDeclarations host input fun d =>
    match d.generate with
    | .ok u => next u
    | .error e => return .failed "" (.space e)

/-- Carries out a command. -/
def run (host : Host m σ) : Command → m Outcome
  | .check input => withDeclarations host input fun d => return checkOutcome d
  | .generate input output => withUnit host input fun u => emit host output u.source
  | .reflect input output => withUnit host input fun u => emit host output u.reflection.pretty
  | .build input toolchain =>
    withFactory host input toolchain fun f =>
      return { output := String.join ((settingsLines f).map line) }
  | .test input toolchain json =>
    withFactory host input toolchain fun f => do
      match ← f.runTests with
      | .ok r => return testOutcome json r
      | .error e => return .failed "" (.space (.factory e))

/-- Does what the arguments ask for. -/
def runArguments (host : Host m σ) (arguments : List String) : m Outcome :=
  match Request.ofArguments? arguments with
  | some (.run command) => command.run host
  | some (.help topic) => return { output := topic.page }
  | some .version => return { output := versionText }
  | none => return .usage

end Command

end ReactiveSpace
