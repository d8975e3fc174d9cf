import ReactiveSpace.Build.Bundle
import ReactiveSpace.Document.Registry
import ReactiveSpace.Document.Settings
import ReactiveSpace.ErrorCode

/-!
# Factories

A factory binds one unit for one space. Binding reads the unit's settings and services once. The
clients of the services are asked for on demand, in three steps: the factory is asked whether it has
a registry, else the unit fills a new one, and the factory keeps it unless it has got one meanwhile.
-/

namespace ReactiveSpace

open Json (Tree)

/-- Why a factory failed. -/
inductive FactoryError where
  | load (error : LoadError)
  | bind (error : InvokeError)
  | predicate (p : Predicate) (error : InvokeError)
  | create (error : InvokeError)
  | test (name : String) (error : InvokeError)
deriving DecidableEq

namespace FactoryError

/-- The error in words. -/
def message : FactoryError → String
  | .load error => "failed to load unit: " ++ error.message
  | .bind error => "failed to bind unit: " ++ error.message
  | .predicate p error => p.name ++ " failed: " ++ error.message
  | .create error => "failed to create document: " ++ error.message
  | .test name error => s!"test '{name}' could not run: " ++ error.message

/-- The code of an error. -/
def code : FactoryError → ErrorCode
  | .load _ | .bind _ => .bind
  | .predicate .canCreate _ => .canCreate
  | .predicate .canInvent _ => .canInvent
  | .predicate .canSendWhileDisconnected _ => .canSendWhileDisconnected
  | .create _ => .create
  | .test _ _ => .testRun

/-- The errors below an error, which a full report prints after it. -/
def causes : FactoryError → List String
  | .load error => [error.message]
  | .test _ error => [error.message]
  | .bind _ | .predicate _ _ | .create _ => []

end FactoryError

/-- A unit bound for a space. -/
structure Factory (m : Type → Type) (σ : Type) where
  space : String
  unit : DocumentUnit m σ
  settings : Settings
  /-- All settings of the unit, known or not. -/
  rawSettings : List (String × Setting)
  /-- The properties of each service. -/
  services : List (String × List (String × String))
  /-- The registry of clients, once there is one. -/
  registry : Option Registry := none

namespace Factory

variable {m : Type → Type} {σ : Type}

/-- Reads the properties of services; a text of another form has none. -/
def servicesOfText (text : String) : List (String × List (String × String)) :=
  ((Tree.ofText? text).bind (Tree.mapOf? (Tree.mapOf? Tree.string?))).getD []

/-- The factory of a unit whose settings and services have been read. -/
def ofTexts (space : String) (unit : DocumentUnit m σ) (config services : String) :
    Factory m σ where
  space := space
  unit := unit
  settings := Settings.ofText config
  rawSettings := Settings.mapOfText config
  services := servicesOfText services

/-- Binds a unit. -/
def ofUnit [Monad m] (space : String) (unit : DocumentUnit m σ) :
    m (Except FactoryError (Factory m σ)) := do
  match ← unit.config with
  | .error e => return .error (.bind e)
  | .ok config =>
    match ← unit.services with
    | .error e => return .error (.bind e)
    | .ok services => return .ok (ofTexts space unit config services)

/-- Loads the library of a bundle and binds it. -/
def ofBundle [Monad m] (space : String) (bundle : Bundle σ) :
    m (Except FactoryError (Factory m σ)) := do
  match bundle.loadLibrary.1 with
  | .error e => return .error (.load e)
  | .ok library => ofUnit space library.unit

/-- Whether a static predicate of the unit admits a request. -/
def admits [Monad m] (f : Factory m σ) (p : Predicate) (context : Context) :
    m (Except FactoryError Bool) := do
  let verdict ← f.unit.admits p context
  return verdict.mapError (.predicate p)

/-- Constructs a document. -/
def create [Monad m] (f : Factory m σ) : m (Except FactoryError (Document σ)) := do
  let reply ← f.unit.construct
  return match reply.result with
    | .ok state => .ok ⟨state, reply.patches⟩
    | .error e => .error (.create e)

/-! ### Clients -/

/-- A new registry, filled by the unit. -/
def fill [Monad m] (f : Factory m σ) (decrypt : Decryptor) :
    m (Except FactoryError Registry) := do
  match ← f.unit.clients with
  | .error e => return .error (.bind e)
  | .ok clients => return .ok (Registry.ofClients decrypt clients)

/-- Keeps a registry unless there is one already; the answer is the registry that is kept. -/
def publish (f : Factory m σ) (fresh : Registry) : Registry × Factory m σ :=
  match f.registry with
  | some registry => (registry, f)
  | none => (fresh, { f with registry := some fresh })

/-- The clients of the space. The unit is asked for them until it answers, and then never again. -/
def clients [Monad m] (f : Factory m σ) (decrypt : Decryptor) :
    m (Except FactoryError Registry × Factory m σ) := do
  match f.registry with
  | some registry => return (.ok registry, f)
  | none =>
    match ← f.fill decrypt with
    | .error e => return (.error e, f)
    | .ok fresh =>
      let (registry, next) := f.publish fresh
      return (.ok registry, next)

/-! ### Printing -/

/-- A truth value as logs print it. -/
def boolText : Bool → String
  | true => "true"
  | false => "false"

/-- The settings as logs print them. -/
def settingsText (s : Settings) : String :=
  "DocumentConfig \x7b maximum_history: " ++ Decimal.intText s.maximumHistory ++
    ", delete_on_close: " ++ boolText s.deleteOnClose ++
    ", readonly: " ++ boolText s.readonly ++
    ", frequency: " ++ Decimal.intText s.frequency ++
    ", temporal_resolution_ms: " ++ Decimal.intText s.temporalResolution ++
    ", sweep_export_delay: " ++ Decimal.intText s.sweepExportDelay ++ " \x7d"

/-- A factory as logs print it. -/
def text (f : Factory m σ) : String :=
  "DocumentFactory \x7b space: " ++ Text.quote f.space ++ ", config: " ++
    settingsText f.settings ++ ", services: [" ++
    ", ".intercalate ((Keyed.names f.services).map Text.quote) ++ "], .. \x7d"

end Factory

end ReactiveSpace
