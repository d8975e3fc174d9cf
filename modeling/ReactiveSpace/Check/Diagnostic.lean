import ReactiveSpace.Schema.Name
import ReactiveSpace.Space.Table

/-!
# Diagnostics

A `Problem` is one way in which declarations can be wrong, and a `Diagnostic` is a problem at a
position. The wording of all problems is in `Problem.message`.
-/

namespace ReactiveSpace

/-- What a name is used for. -/
inductive NameUse where
  | type
  | test
  | field
  | method
  | parameter
  | rule
deriving DecidableEq

/-- The use in words. -/
def NameUse.word : NameUse → String
  | .type => "type"
  | .test => "test"
  | .field => "field"
  | .method => "method"
  | .parameter => "parameter"
  | .rule => "policy"

/-- A container whose range may not be a table. -/
inductive Container where
  | list
  | map
  | formula
deriving DecidableEq

/-- The container in words. -/
def Container.word : Container → String
  | .list => "list"
  | .map => "map"
  | .formula => "formula"

/-- One way in which declarations can be wrong. -/
inductive Problem where
  /-- The name can not be written into the target source. -/
  | unusableName (use : NameUse) (name : String) (problem : NameProblem)
  | duplicateType (name : String)
  | duplicateTest (name : String)
  | duplicateField (field owner : String)
  | duplicateMethod (method owner : String)
  /-- A method has the name of a field. -/
  | methodIsField (method owner : String)
  /-- A table states a privacy. -/
  | tablePrivacy (field : String)
  /-- A projection is marked readonly or states a privacy. -/
  | projectionMarked (field : String)
  /-- The field of `viewer_is` holds no principal. -/
  | viewerNotPrincipal (viewer field owner : String)
  | ruleNotFound (rule field owner : String)
  /-- A message holds a type that messages can not hold. -/
  | unfitForMessage (field owner type : String)
  | missingId (owner : String)
  | idNotInt (owner type : String)
  | indexNotFound (field owner : String)
  | notIndexable (field type : String)
  /-- A replication status lacks its service or its method. -/
  | replicationIncomplete
  | emptyFormula
  /-- The range of a container is a table. -/
  | tableRange (container : Container) (type : String)
  /-- The domain of a map is not a key type. -/
  | badDomain (type : String)
  | holderNotMessage (message type : String)
  | tableOfMessage (message : String)
  | tableOfOther (type : String)
  /-- A projection stands outside every structure. -/
  | projectionOutside (table field : String)
  | tableVariableNotFound (table owner : String)
  | notTableVariable (table : String)
  | projectedNotFound (field record table : String)
  /-- The projected field is not of a key type. -/
  | badProjected (field type : String)
  /-- A reactive structure holds a message without a holder. -/
  | bareMessage (message : String)
  | recordInMessage (record : String)
  | unresolved (error : ResolveError)
  /-- Records that embed each other directly, each in the next and the last in the first. -/
  | embeddingCycle (records : List String)
deriving DecidableEq

/-- The problem in words. -/
def Problem.message : Problem → String
  | .unusableName use name problem =>
    "The " ++ use.word ++ " name '" ++ name ++ "' can not be used: " ++ problem.message
  | .duplicateType name => s!"The type '{name}' is already defined"
  | .duplicateTest name => s!"The test '{name}' is declared more than once"
  | .duplicateField field owner => s!"The field '{field}' is declared more than once in '{owner}'"
  | .duplicateMethod method owner =>
    s!"The method '{method}' is declared more than once in '{owner}'"
  | .methodIsField method owner => s!"The method '{method}' collides with a field of '{owner}'"
  | .tablePrivacy field =>
    s!"Tables are private by default; the privacy policy on '{field}' is not allowed"
  | .projectionMarked field =>
    s!"The projection '{field}' is implicitly readonly and private; " ++
      "it can not be marked readonly or carry a privacy policy"
  | .viewerNotPrincipal viewer field owner =>
    s!"The policy viewer_is<{viewer}> on '{field}' must name a principal field of '{owner}'"
  | .ruleNotFound rule field owner =>
    s!"The policy '{rule}' used by '{field}' was not found on '{owner}'"
  | .unfitForMessage field owner type =>
    s!"The field '{field}' of message '{owner}' has type '{type}', " ++
      "which can not be stored in a message"
  | .missingId owner => s!"Record '{owner}' must have an 'id' field of type int"
  | .idNotInt owner type => s!"Record '{owner}' has an 'id' field of type '{type}'; it must be int"
  | .indexNotFound field owner => s!"The index field '{field}' was not found on '{owner}'"
  | .notIndexable field type => s!"The field '{field}' of type '{type}' can not be indexed"
  | .replicationIncomplete => "A replication status requires both a service and a method"
  | .emptyFormula => "The formula of a lazy value must not be empty"
  | .tableRange container type =>
    "The range type of a " ++ container.word ++ s!" must not be a table, but got '{type}'"
  | .badDomain type =>
    s!"The domain type of a map must be int, long, string or principal, but got '{type}'"
  | .holderNotMessage message type =>
    s!"A holder must name a message, but '{message}' is '{type}'"
  | .tableOfMessage message => s!"A table must contain a record, but '{message}' is a message"
  | .tableOfOther type => s!"The range type of a table must be a record, but got '{type}'"
  | .projectionOutside table field =>
    s!"The projection of '{table}.{field}' must be declared inside a structure"
  | .tableVariableNotFound table owner =>
    s!"The table variable '{table}' was not found in '{owner}'"
  | .notTableVariable table =>
    s!"The variable '{table}' is not a table; a projection requires a table"
  | .projectedNotFound field record table =>
    s!"The field '{field}' was not found on the record '{record}' of the table variable '{table}'"
  | .badProjected field type =>
    s!"The projected field '{field}' has type '{type}'; it must be int, long, string or principal"
  | .bareMessage message =>
    s!"The message '{message}' can not be stored directly in a reactive structure; " ++
      s!"use holder<{message}>"
  | .recordInMessage record => s!"The record '{record}' can not be stored inside a message"
  | .unresolved error => error.message
  | .embeddingCycle records =>
    "The records " ++ " -> ".intercalate (records ++ records.take 1) ++
      " embed each other directly and can never be constructed; " ++
      "store one side in a table, list, map or maybe"

/-- A problem at a position. -/
structure Diagnostic where
  position : Position
  problem : Problem
deriving DecidableEq

namespace Diagnostic

/-- The diagnostic in words. -/
def message (d : Diagnostic) : String :=
  d.problem.message

/-- The diagnostic behind the start of its position. -/
def text (d : Diagnostic) : String :=
  d.position.text ++ ": " ++ d.message

/-- Diagnostics, one a line. -/
def report (ds : List Diagnostic) : String :=
  "\n".intercalate (ds.map text)

end Diagnostic

end ReactiveSpace
