import ReactiveSpace.Decimal.Style

/-!
# Codes of failures

Whoever handles a failure decides by its code and never by its text. Codes have stable numbers from
150001 on, in the order of the list here.
-/

namespace ReactiveSpace

/-- The stage at which a space failed. -/
inductive ErrorCode where
  /-- Loading or binding the unit. -/
  | bind
  | canCreate
  | canInvent
  | canSendWhileDisconnected
  /-- Constructing a document. -/
  | create
  | compile
  /-- The space has diagnostics. -/
  | notDeployable
  /-- Generating source. -/
  | source
  /-- Listing the tests of a unit. -/
  | testRun
deriving DecidableEq

namespace ErrorCode

/-- All codes, in the order of their numbers. -/
def all : List ErrorCode :=
  [bind, canCreate, canInvent, canSendWhileDisconnected, create, compile, notDeployable, source,
   testRun]

/-- The number of a code. -/
def number : ErrorCode → Nat
  | bind => 150001
  | canCreate => 150002
  | canInvent => 150003
  | canSendWhileDisconnected => 150004
  | create => 150005
  | compile => 150006
  | notDeployable => 150007
  | source => 150008
  | testRun => 150009

/-- The name of a code. -/
def name : ErrorCode → String
  | bind => "FACTORY_BIND_FAILED"
  | canCreate => "CAN_CREATE_FAILED"
  | canInvent => "CAN_INVENT_FAILED"
  | canSendWhileDisconnected => "CAN_SEND_WHILE_DISCONNECTED_FAILED"
  | create => "CATASTROPHIC_CREATE_FAILED"
  | compile => "COMPILE_FAILED"
  | notDeployable => "NOT_DEPLOYABLE"
  | source => "CODEGEN_FAILED"
  | testRun => "TEST_RUN_FAILED"

/-- A code as it is printed. -/
def text (c : ErrorCode) : String :=
  c.name ++ " (" ++ Decimal.digitText c.number ++ ")"

/-- The status that a process ends with: the low byte of the number, and never zero. -/
def exitStatus (c : ErrorCode) : Nat :=
  max 1 (c.number % 256)

end ErrorCode

end ReactiveSpace
