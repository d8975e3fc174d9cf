import ReactiveSpace.Document.Factory

/-!
# Running tests

Every test of a unit runs on a document of its own: it is constructed, its construction is carried
out by the system principal, it is told its space and key, and then the test runs. The first of
these stages that fails ends the test. A document that was constructed is destroyed in any case, and
what it reports until then counts. Nothing is handed from one test to the next, so what a test
reports depends on its name alone.
-/

namespace ReactiveSpace

open Json (Tree)
open Json.Tree (orElse)

/-- How a test ended. -/
inductive TestOutcome where
  | passed
  /-- At least one assertion failed. -/
  | failed
  /-- The test did not come to its end. -/
  | aborted (reason : String)
deriving DecidableEq

/-- What a unit reports about a test. -/
structure TestResult where
  assertions : UInt32 := 0
  failures : List String := []
  log : List String := []
deriving DecidableEq, Inhabited

/-- Reads a result. -/
def TestResult.ofTree? (t : Tree) : Option TestResult := do
  let parts ← t.parts? ["assertions", "failures", "log"]
  let assertions ← orElse parts "assertions" 0 (·.1.word?)
  let failures ← orElse parts "failures" [] (·.1.listOf? Tree.string?)
  let log ← orElse parts "log" [] (·.1.listOf? Tree.string?)
  return ⟨assertions, failures, log⟩

/-- The report on one test. -/
structure TestCase where
  name : String
  outcome : TestOutcome
  result : TestResult := {}
  /-- The number of patches that the document reported. -/
  patches : Nat
deriving DecidableEq

namespace TestCase

/-- Whether the test passed. -/
def isPassed (c : TestCase) : Bool :=
  c.outcome == .passed

/-- The report on a test whose document reported `patches` and gave `answer`. -/
def ofAnswer (name : String) (patches : Nat) : Except InvokeError Json → TestCase
  | .error e => { name := name, outcome := .aborted e.message, patches := patches }
  | .ok report =>
    match TestResult.ofTree? report.toTree with
    | none =>
      { name := name, outcome := .aborted "unreadable report: it has another form",
        patches := patches }
    | some result =>
      { name := name
        outcome := if result.failures.isEmpty then .passed else .failed
        result := result
        patches := patches }

end TestCase

/-- The report on all tests of a unit. -/
structure TestReport where
  space : String
  cases : List TestCase
deriving DecidableEq

namespace TestReport

/-- The number of tests that passed. -/
def passed (r : TestReport) : Nat :=
  r.cases.countP TestCase.isPassed

/-- The number of tests that did not pass. -/
def failed (r : TestReport) : Nat :=
  r.cases.countP fun c => !c.isPassed

/-- Whether every test passed. -/
def allPassed (r : TestReport) : Bool :=
  r.failed == 0

end TestReport

/-! ### Writing -/

/-- An outcome as a value. -/
def TestOutcome.toJson : TestOutcome → Json
  | .passed => .object [("status", .string "passed")]
  | .failed => .object [("status", .string "failed")]
  | .aborted reason => .object [("status", .string "aborted"), ("reason", .string reason)]

/-- The report on one test as a value. No time is measured, so its duration is zero. -/
def TestCase.toJson (c : TestCase) : Json :=
  .object [("name", .string c.name), ("outcome", c.outcome.toJson),
    ("assertions", .ofNat c.result.assertions.toNat),
    ("failures", .array (c.result.failures.map .string)),
    ("log", .array (c.result.log.map .string)), ("patches", .ofNat c.patches),
    ("duration_ms", .ofNat 0)]

/-- A report as a value. -/
def TestReport.toJson (r : TestReport) : Json :=
  .object [("space", .string r.space), ("cases", .array (r.cases.map TestCase.toJson))]

/-! ### Running -/

namespace DocumentUnit

variable {m : Type → Type} [Monad m] {σ : Type}

/-- The stages of a test after its document was constructed: the answer of the test or the failure
that came before it, and the document as the last stage left it. -/
def runStages (u : DocumentUnit m σ) (space key name : String) (d : Document σ) :
    m (Except InvokeError Json × Document σ) := do
  let (constructed, d) ← d.call (u.transactConstruct Principal.system "\x7b\x7d")
  match constructed with
  | .error e => return (.error e, d)
  | .ok _ =>
    let (bound, d) ← d.call (u.lateBind space key)
    match bound with
    | .error e => return (.error e, d)
    | .ok _ => d.call (u.runTest name)

/-- Runs one test on a document of its own, whose patches are counted when it is gone. -/
def runCase (u : DocumentUnit m σ) (space key name : String) : m TestCase := do
  let reply ← u.construct
  match reply.result with
  | .error e => return .ofAnswer name reply.patches.length (.error e)
  | .ok state =>
    let (answer, d) ← u.runStages space key name ⟨state, reply.patches⟩
    let patches ← d.close u
    return .ofAnswer name patches.length answer

/-- Runs all tests of a unit, in order. -/
def runTests (u : DocumentUnit m σ) (space key : String) :
    m (Except FactoryError TestReport) := do
  match ← u.tests with
  | .error e => return .error (.test "*" e)
  | .ok names =>
    let cases ← names.mapM (u.runCase space key)
    return .ok ⟨space, cases⟩

end DocumentUnit

/-- The key of documents under test. -/
def Factory.testKey : String := "test"

/-- Runs all tests of a factory's unit. -/
def Factory.runTests {m : Type → Type} [Monad m] {σ : Type} (f : Factory m σ) :
    m (Except FactoryError TestReport) :=
  f.unit.runTests f.space Factory.testKey

end ReactiveSpace
