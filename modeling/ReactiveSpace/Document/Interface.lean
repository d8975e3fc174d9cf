import ReactiveSpace.Document.Principal
import ReactiveSpace.Space.Surface

/-!
# Units

A `DocumentUnit` is a compiled unit as its host sees it: static entry points, and calls on the
documents it constructs. The state of a document is of a type `σ` that only the unit looks into, and
a call gives the state that comes after it. Patches that the unit reports during a call are part of
its reply, so a document depends on the calls made to it and on nothing else. Calls happen in a
monad `m`; in the identity monad a unit is a family of functions.
-/

namespace ReactiveSpace

/-- Why a call into a unit failed. -/
inductive InvokeError where
  /-- The unit says so. -/
  | reported (message : String)
  /-- An entry point gave no answer. -/
  | noAnswer (entry : String)
  /-- An entry point ended with a status that means failure. -/
  | status (entry : String) (value : Int)
  /-- A text that crosses the border of the unit holds U+0000. -/
  | textWithNul
  /-- The answer of an entry point can not be read. -/
  | unreadable (entry : String)
deriving DecidableEq

/-- The error in words. -/
def InvokeError.message : InvokeError → String
  | .reported message => message
  | .noAnswer entry => s!"{entry} failed inside the unit"
  | .status entry value => s!"{entry} failed with status " ++ Decimal.intText value
  | .textWithNul => "string contains NUL"
  | .unreadable entry => s!"{entry}: the answer has another form"

/-- What a call gives: the patches reported during it, and its result. -/
structure Reply (α : Type) where
  patches : List String := []
  result : Except InvokeError α

/-- The static predicates of a unit. -/
inductive Predicate where
  | canCreate
  | canInvent
  | canSendWhileDisconnected
deriving DecidableEq

/-- The name of a predicate. -/
def Predicate.name : Predicate → String
  | .canCreate => "can_create"
  | .canInvent => "can_invent"
  | .canSendWhileDisconnected => "can_send_while_disconnected"

/-- A compiled unit, with documents in states of type `σ`. -/
structure DocumentUnit (m : Type → Type) (σ : Type) where
  /-- The static configuration, as the text of an object. -/
  config : m (Except InvokeError String)
  /-- The properties of each service, as the text of an object of objects. -/
  services : m (Except InvokeError String)
  /-- Whether a static predicate admits a request. -/
  admits : Predicate → Context → m (Except InvokeError Bool)
  /-- The clients that the unit asks for. -/
  clients : m (Except InvokeError (List Client))
  /-- The names of the tests. -/
  tests : m (Except InvokeError (List String))
  /-- A new document. -/
  construct : m (Reply σ)
  /-- Runs the construction of a document and answers its patch. -/
  transactConstruct : Principal → String → σ → m (Reply String × σ)
  /-- Tells a document its space and its key. -/
  lateBind : String → String → σ → m (Reply Unit × σ)
  /-- Runs a test and answers its report. -/
  runTest : String → σ → m (Reply Json × σ)
  /-- What a document still reports while it is destroyed. Most documents have nothing to say. -/
  destroy : σ → m (List String) := by exact fun _ => pure []

/-! ### Documents -/

/-- A live document with the patches it has reported, in order. -/
structure Document (σ : Type) where
  state : σ
  patches : List String := []

namespace Document

variable {m : Type → Type} {σ α : Type}

/-- Calls a document. What it reports is added to its patches, whether or not the call succeeds. -/
def call [Monad m] (d : Document σ) (entry : σ → m (Reply α × σ)) :
    m (Except InvokeError α × Document σ) := do
  let (reply, state) ← entry d.state
  return (reply.result, ⟨state, d.patches ++ reply.patches⟩)

/-- Destroys a document; what is left are the patches that it has reported, the last ones
included. -/
def close [Monad m] (u : DocumentUnit m σ) (d : Document σ) : m (List String) := do
  let last ← u.destroy d.state
  return d.patches ++ last

end Document

end ReactiveSpace
