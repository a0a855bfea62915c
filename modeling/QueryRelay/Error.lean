import QueryRelay.Operator

/-!
# Errors

What can go wrong, as causes grouped by the stage that finds them; `Error` is their union together
with the failures that another side reports. Each cause has one wording, and each kind of error a
name that stays the same across the wire. Expressions and types appear in a cause as the text that
shows them.
-/

namespace QueryRelay

/-- Why an expression has no plan, a plan no expression, or a tree no linear form. -/
inductive PlanFault where
  /-- A captured value is left over. -/
  | capturedLeft (name : String)
  /-- No enclosing lambda binds the parameter. -/
  | notInScope (parameter : String)
  /-- Something else stands where a lambda belongs. -/
  | notLambda (shown : String)
  /-- A lambda is given another number of arguments than it has parameters. -/
  | arity (lambda : String) (declared supplied : Nat)
  /-- A predicate has another type than a truth value. -/
  | notPredicate (lambda type : String)
  /-- An operator lacks an argument. -/
  | missingArgument (operator : String) (index : Nat)
  /-- An operator is applied to something that cannot be enumerated. -/
  | notSequence (operator type : String)
  /-- A flattening selector gives something that cannot be enumerated. -/
  | selectorNotSequence (type : String)
  /-- The inner side of a join cannot be enumerated. -/
  | innerNotSequence (type : String)
  /-- A further sort key follows no sort. -/
  | strayThenBy (operator : String)
  /-- A further navigation follows no include. -/
  | strayThenInclude
  /-- The test of all elements has no predicate. -/
  | allWithoutPredicate
  /-- An aggregate does not apply to the type. -/
  | aggregateType (aggregate : Aggregate) (type : String)
  /-- A count is negative. -/
  | negativeCount (operator : String) (count : Int)
  /-- A count is not a constant integer. -/
  | countNotConstant (operator shown : String)
  /-- A type has no such member. -/
  | noMember (type member : String)
  /-- A type cannot be negated. -/
  | cannotNegate (type : String)
  /-- An operator does not apply to the two types. -/
  | operatorTypes (op : BinaryOp) (left right : String)
  /-- An expression is no navigation path. -/
  | notNavigation (shown : String)
  /-- No function of this name is declared on the type. -/
  | unknownFunction (type name : String)
  /-- An object construction has not one value for each member. -/
  | memberCount (members values : Nat)
  /-- A sort key stands outside a sort. -/
  | straySortKey
  /-- A sort has no key. -/
  | noSortKeys
  /-- Something else stands where a sort key belongs. -/
  | notSortKey (shown : String)
  /-- A count does not fit an integer. -/
  | countRange (count : Nat)
  /-- The tree is not a query. -/
  | notQuery (shown : String)
  /-- The operator has no place in a linear query. -/
  | notLinear (operator : String)
  /-- The operators of a linear query are not in order. -/
  | outOfOrder (operator : String)
  /-- A fault in the words of someone else. -/
  | reported (text : String)
deriving DecidableEq

/-- The wording of a fault. -/
def PlanFault.message : PlanFault → String
  | .capturedLeft n => "captured value '" ++ n ++ "' was not evaluated locally"
  | .notInScope n => "parameter '" ++ n ++ "' is not in scope"
  | .notLambda e => "expected a lambda, got '" ++ e ++ "'"
  | .arity e declared supplied =>
    "lambda '" ++ e ++ "' takes " ++ toString declared ++ " parameters, " ++ toString supplied ++
      " supplied"
  | .notPredicate e t => "predicate '" ++ e ++ "' returns " ++ t ++ ", expected bool"
  | .missingArgument o i => o ++ " is missing argument " ++ toString i
  | .notSequence o t => o ++ " requires a sequence source, got " ++ t
  | .selectorNotSequence t => "SelectMany selector must return a sequence, got " ++ t
  | .innerNotSequence t => "Join requires a sequence, got " ++ t
  | .strayThenBy o => o ++ " must follow OrderBy or ThenBy"
  | .strayThenInclude => "ThenInclude must follow Include or ThenInclude"
  | .allWithoutPredicate => "All requires a predicate"
  | .aggregateType a t => a.name ++ " is not defined for " ++ t
  | .negativeCount o n => o ++ " count must be non-negative, got " ++ toString n
  | .countNotConstant o e => o ++ " count must be a constant integer, got '" ++ e ++ "'"
  | .noMember t m => t ++ " has no member '" ++ m ++ "'"
  | .cannotNegate t => "cannot negate " ++ t
  | .operatorTypes op l r => "operator " ++ op.symbol ++ " is not defined for " ++ l ++ " and " ++ r
  | .notNavigation e => "'" ++ e ++ "' is not a navigation path"
  | .unknownFunction t n => "unknown function " ++ t ++ "." ++ n
  | .memberCount m v =>
    "object construction has " ++ toString m ++ " members but " ++ toString v ++ " values"
  | .straySortKey => "sort key outside of a sort operator"
  | .noSortKeys => "sort without keys"
  | .notSortKey e => "'" ++ e ++ "' is not a sort key"
  | .countRange n => "count " ++ toString n ++ " is out of range"
  | .notQuery e => "'" ++ e ++ "' is not a query"
  | .notLinear o => "operator " ++ o ++ " has no linear query form"
  | .outOfOrder o => "operator " ++ o ++ " is out of order for a linear query"
  | .reported s => s

/-- Why a static type does not settle a question. -/
inductive TypingFault where
  /-- A type still has an open part. -/
  | notConcrete (type : String)
  /-- Nothing gives the parameter a type. -/
  | openParameter (name : String)
  /-- The branches of a conditional have unlike types. -/
  | branches (whenTrue whenFalse : String)
  /-- A collection is asked of a query with one result. -/
  | collectionOfSingle (type : String)
  /-- One result is asked of a query with a collection. -/
  | singleOfCollection (type : String)
  /-- A fault in the words of someone else. -/
  | reported (text : String)
deriving DecidableEq

/-- The wording of a fault. -/
def TypingFault.message : TypingFault → String
  | .notConcrete t => "cannot determine a concrete type for " ++ t
  | .openParameter n => "type of parameter '" ++ n ++ "' cannot be inferred"
  | .branches t f => "conditional branches have different types: " ++ t ++ " and " ++ f
  | .collectionOfSingle t => "a collection was requested but the query yields a single " ++ t
  | .singleOfCollection t => "a single value was requested but the query yields " ++ t
  | .reported s => s

/-- Why a type descriptor is of no use. -/
inductive DescriptorFault where
  /-- The catalog has no such type. -/
  | unresolved (shown : String)
  /-- The type cannot be enumerated. -/
  | notCollection (shown : String)
  /-- A name is missing in a written descriptor; `rest` starts, quoted, where it belongs. -/
  | unreadable (input rest : String)
  /-- Something follows a written descriptor. -/
  | trailing (rest input : String)
deriving DecidableEq

/-- The wording of a fault. -/
def DescriptorFault.message : DescriptorFault → String
  | .unresolved t => t
  | .notCollection t => t ++ " is not a collection type"
  | .unreadable input rest =>
    "cannot parse '" ++ input ++ "': Error(Error \x7b input: " ++ rest ++ ", code: TakeWhile1 \x7d)"
  | .trailing rest input => "unexpected trailing content '" ++ rest ++ "' in '" ++ input ++ "'"

/-- Why a set-up is unusable. -/
inductive SetupFault where
  /-- No types were given. -/
  | noTypes
  /-- Nothing was given that could answer a query. -/
  | noProvider
  /-- The type of a declared field is unusable. -/
  | fieldType (record field cause : String)
  /-- There are rows for a record that is not declared. -/
  | undeclaredRows (record : String)
  /-- The text of a timestamp field is none. -/
  | rowTimestamp (record field cause : String)
  /-- A settings file is not well formed. -/
  | settings
  /-- A fault in the words of someone else. -/
  | reported (text : String)
deriving DecidableEq

/-- The wording of a fault. -/
def SetupFault.message : SetupFault → String
  | .noTypes => "type metadata is required"
  | .noProvider => "at least one data provider is required"
  | .fieldType r f c => r ++ "." ++ f ++ ": " ++ c
  | .undeclaredRows r => "rows for undeclared record '" ++ r ++ "'"
  | .rowTimestamp r f c => r ++ "." ++ f ++ ": " ++ c
  | .settings => "malformed settings"
  | .reported s => s

/-- A step from a result into one of its parts. -/
inductive PathStep where
  /-- Into a field of a record. -/
  | field (name : String)
  /-- Into an item of a list. -/
  | element (index : Nat)
deriving DecidableEq

/-- The text of a step. -/
def PathStep.render : PathStep → String
  | .field n => "field '" ++ n ++ "': "
  | .element i => "element " ++ toString i ++ ": "

/-- Why a value does not fit a result type. -/
inductive MappingCause where
  /-- No record has the identity that a reference names. -/
  | dangling (id : String)
  /-- Another kind of value stands where a record belongs. -/
  | notRecord (kind : String)
  /-- Another kind of value stands where a list belongs. -/
  | notList (kind : String)
  /-- A record held by value contains itself. -/
  | selfReference (id : String)
  /-- A shared record is asked for while it is being built. -/
  | cycle (id : String)
  /-- A field without default is absent. -/
  | missingField (name : String)
  /-- A value has no counterpart in the type. -/
  | noConversion (kind shown target : String)
  /-- A fault in the words of someone else. -/
  | reported (text : String)
deriving DecidableEq

/-- The wording of a cause. -/
def MappingCause.message : MappingCause → String
  | .dangling id => "dangling reference to " ++ id
  | .notRecord k => "expected a record, got " ++ k
  | .notList k => "expected a list, got " ++ k
  | .selfReference id =>
    "object " ++ id ++ " references itself; map the back-reference as Weak"
  | .cycle id =>
    "object " ++ id ++ " is part of a reference cycle and must be mapped as Weak"
  | .missingField n => "missing required field '" ++ n ++ "'"
  | .noConversion k v t => "cannot convert " ++ k ++ " " ++ v ++ " to " ++ t
  | .reported s => s

/-- A cause and the place where it was met, the outermost step first. -/
structure MappingFault where
  /-- The steps to the place. -/
  path : List PathStep
  /-- What is wrong there. -/
  cause : MappingCause
deriving DecidableEq

/-- The wording of a fault. -/
def MappingFault.message (f : MappingFault) : String :=
  String.join (f.path.map PathStep.render) ++ f.cause.message

/-- The same fault seen from one step further out. -/
def MappingFault.within (f : MappingFault) (step : PathStep) : MappingFault :=
  { f with path := step :: f.path }

/-- Why an evaluation has no result. -/
inductive ExecutionFault where
  /-- The store has no table of this record. -/
  | noData (record : String)
  /-- Only tables of records can be queried. -/
  | notQueryable (type : String)
  /-- No enclosing lambda binds the parameter. -/
  | unbound (parameter : String)
  /-- A negation leaves the integers. -/
  | negationOverflow
  /-- A kind of value cannot be negated. -/
  | cannotNegate (kind : String)
  /-- A lambda has no value. -/
  | lambdaAsValue
  /-- A function has no body here. -/
  | noBody (type name : String)
  /-- Something else stands where a lambda belongs. -/
  | notLambda (shown : String)
  /-- A lambda is given another number of arguments than it has parameters. -/
  | arity (declared supplied : Nat)
  /-- A count is negative. -/
  | negativeCount (count : Int)
  /-- A count is no integer. -/
  | countKind (kind : String)
  /-- An operator lacks an argument. -/
  | missingArgument (operator : String) (index : Nat)
  /-- A further sort key follows no sort. -/
  | strayThenBy
  /-- A sort operator lacks its key. -/
  | noSortKey (operator : String)
  /-- There is no element to take. -/
  | noElements
  /-- No element qualifies. -/
  | noMatch
  /-- More than one element qualifies. -/
  | manyMatches
  /-- A kind of value has no mean. -/
  | cannotAverage (kind : String)
  /-- A kind of value cannot be summed. -/
  | cannotSum (kind : String)
  /-- A sum leaves the integers. -/
  | sumOverflow
  /-- A record is not a group. -/
  | recordNotSequence
  /-- A kind of value cannot be enumerated. -/
  | notSequence (kind : String)
  /-- A kind of value is no truth value. -/
  | notBoolean (kind : String)
  /-- A kind of value has no such member. -/
  | noMember (kind member : String)
  /-- A result leaves the integers. -/
  | overflow (op : BinaryOp)
  /-- An integer is divided by zero. -/
  | divisionByZero
  /-- An operator is not arithmetic. -/
  | unsupportedOperator (op : BinaryOp)
  /-- An operator does not apply to the two kinds of value. -/
  | operandKinds (op : BinaryOp) (left right : String)
  /-- A function expects a text. -/
  | notText (function : String) (index : Nat)
  /-- A function expects a number. -/
  | notNumber (function : String) (index : Nat)
  /-- An absolute value leaves the integers. -/
  | absOverflow
  /-- An absolute value is asked of something else than an integer. -/
  | absKind
  /-- A date leaves the representable years. -/
  | addDaysRange
  /-- Days are added with the wrong arguments. -/
  | addDaysKinds
  /-- A fault in the words of someone else. -/
  | reported (text : String)
deriving DecidableEq

/-- The wording of a fault. -/
def ExecutionFault.message : ExecutionFault → String
  | .noData r => "no data for '" ++ r ++ "'"
  | .notQueryable t => "cannot query a source of " ++ t
  | .unbound n => "unbound parameter '" ++ n ++ "'"
  | .negationOverflow => "integer overflow"
  | .cannotNegate k => "cannot negate " ++ k
  | .lambdaAsValue => "a lambda cannot be evaluated as a value"
  | .noBody t n => "function " ++ t ++ "." ++ n ++ " has no local implementation"
  | .notLambda e => "expected a lambda, got " ++ e
  | .arity declared supplied =>
    "lambda takes " ++ toString declared ++ " arguments, got " ++ toString supplied
  | .negativeCount n => "count must be non-negative, got " ++ toString n
  | .countKind k => "count must be an integer, got " ++ k
  | .missingArgument o i => o ++ " is missing argument " ++ toString i
  | .strayThenBy => "ThenBy must follow OrderBy"
  | .noSortKey o => o ++ " needs a key"
  | .noElements => "sequence contains no elements"
  | .noMatch => "sequence contains no matching element"
  | .manyMatches => "sequence contains more than one matching element"
  | .cannotAverage k => "cannot average " ++ k
  | .cannotSum k => "cannot sum " ++ k
  | .sumOverflow => "integer overflow in Sum"
  | .recordNotSequence => "record is not a sequence"
  | .notSequence k => k ++ " is not a sequence"
  | .notBoolean k => "expected a boolean, got " ++ k
  | .noMember k m => k ++ " has no member '" ++ m ++ "'"
  | .overflow op => "integer overflow in " ++ op.symbol
  | .divisionByZero => "division by zero"
  | .unsupportedOperator op => "unsupported operator " ++ op.symbol
  | .operandKinds op l r => "cannot apply " ++ op.symbol ++ " to " ++ l ++ " and " ++ r
  | .notText f i => f ++ " expects a string argument " ++ toString i
  | .notNumber f i => f ++ " expects a numeric argument " ++ toString i
  | .absOverflow => "Abs overflow"
  | .absKind => "Abs expects an integer"
  | .addDaysRange => "AddDays out of range"
  | .addDaysKinds => "AddDays expects (timestamp, int)"
  | .reported s => s

/-- Why bytes are not a sequence of frames. -/
inductive FrameFault where
  /-- The kind byte is none of the known ones. -/
  | unknownKind (flag : Nat)
  /-- The length cannot be addressed. -/
  | tooLarge (length : Nat)
  /-- The length is above the agreed limit. -/
  | overLimit (length limit : Nat)
  /-- The bytes end within a header. -/
  | truncatedHeader (got wanted : Nat)
  /-- The bytes end within a payload. -/
  | truncatedPayload (got wanted : Nat)
  /-- The bytes end where an answer was due. -/
  | closed
  /-- A fault in the words of someone else. -/
  | reported (text : String)
deriving DecidableEq

/-- The wording of a fault. -/
def FrameFault.message : FrameFault → String
  | .unknownKind k => "unknown frame kind " ++ toString k
  | .tooLarge n => "frame length " ++ toString n ++ " is too large"
  | .overLimit n limit =>
    "frame of " ++ toString n ++ " bytes exceeds the " ++ toString limit ++ " byte limit"
  | .truncatedHeader got wanted =>
    "truncated header: " ++ toString got ++ " of " ++ toString wanted ++ " bytes"
  | .truncatedPayload got wanted =>
    "truncated payload: " ++ toString got ++ " of " ++ toString wanted ++ " bytes"
  | .closed => "connection closed before a response"
  | .reported s => s

/-- The ways to run a query. -/
inductive Discipline where
  /-- On the spot. -/
  | synchronous
  /-- One awaited result. -/
  | asynchronous
  /-- Element by element. -/
  | streaming
  /-- A way known by name only. -/
  | named (word : String)
deriving DecidableEq

/-- The word for a way to run a query. -/
def Discipline.word : Discipline → String
  | .synchronous => "synchronous"
  | .asynchronous => "asynchronous"
  | .streaming => "streaming"
  | .named w => w

/-- Everything that can go wrong. -/
inductive Error where
  /-- An expression or plan is not supported. -/
  | unsupported (fault : PlanFault)
  /-- A static type does not settle a question. -/
  | ambiguous (fault : TypingFault)
  /-- A type is not known. -/
  | unknownType (fault : DescriptorFault)
  /-- A set-up is unusable. -/
  | setup (fault : SetupFault)
  /-- Nothing is there to run a query in this way. -/
  | noProvider (discipline : Discipline)
  /-- A stream that should have one element has none. -/
  | emptyStream
  /-- A stream that should have one element has more. -/
  | multipleElements
  /-- A value does not fit a result type. -/
  | mapping (fault : MappingFault)
  /-- Another side reports an error of its own. -/
  | remote (message typeName : String)
  /-- An evaluation has no result. -/
  | execution (fault : ExecutionFault)
  /-- The query was called off. -/
  | cancelled
  /-- Bytes are not a sequence of frames. -/
  | framing (fault : FrameFault)
  /-- A payload is not what it should be. -/
  | serialization (text : String)
  /-- The system refuses. -/
  | io (text : String)
  /-- The end of a frame has no 64-bit address. -/
  | addressOverflow
deriving DecidableEq

namespace Error

/-- The stable name of the kind of an error. -/
def kindName : Error → String
  | .unsupported _ => "UnsupportedExpressionError"
  | .ambiguous _ => "AmbiguousResultTypeError"
  | .unknownType _ => "UnknownTypeError"
  | .setup _ => "ConfigurationError"
  | .noProvider _ => "NoProviderConfiguredError"
  | .emptyStream => "EmptyStreamError"
  | .multipleElements => "MultipleElementsError"
  | .mapping _ => "MappingError"
  | .remote _ _ => "RemoteExecutionError"
  | .execution _ => "ExecutionError"
  | .cancelled => "CancelledError"
  | .framing _ => "ProtocolError"
  | .serialization _ => "SerializationError"
  | .io _ => "IoError"
  | .addressOverflow => "AddressOverflow"

/-- The text of an error. -/
def message : Error → String
  | .unsupported f => "Unsupported expression: " ++ f.message
  | .ambiguous f => "Ambiguous result type: " ++ f.message
  | .unknownType f => "Unknown type: '" ++ f.message ++ "'"
  | .setup f => "Configuration error: " ++ f.message
  | .noProvider d => "No data provider configured for " ++ d.word ++ " execution"
  | .emptyStream => "Remote stream returned no data"
  | .multipleElements => "Remote stream returned more than one element"
  | .mapping f => "Mapping error: " ++ f.message
  | .remote m t => "Remote execution failed (" ++ t ++ "): " ++ m
  | .execution f => "Execution error: " ++ f.message
  | .cancelled => "Operation cancelled"
  | .framing f => "Protocol error: " ++ f.message
  | .serialization s => "Serialization error: " ++ s
  | .io s => "IO error: " ++ s
  | .addressOverflow => "Address overflow"

end Error
end QueryRelay
