import QueryRelay.Operator
import QueryRelay.Payload.Datum

/-!
# The shapes of messages

Every part of a message is a leaf, a list, a table, or one of the sorts listed here, each of which
is a product of fields or a choice of alternatives. The order of fields and alternatives is part of
the binary form, their names are part of the text form.
-/

namespace QueryRelay.Payload

/-- The sorts of compound parts. -/
inductive SortName where
  /-- A value. -/
  | value
  /-- A record within a value. -/
  | record
  /-- A type descriptor. -/
  | descriptor
  /-- A member of an anonymous type. -/
  | member
  /-- A plan. -/
  | plan
  /-- A lambda parameter. -/
  | parameter
  /-- A named value of a record construction. -/
  | binding
  /-- A stage of a query. -/
  | stage
  /-- A unary operator. -/
  | unaryOp
  /-- A binary operator. -/
  | binaryOp
  /-- An aggregate. -/
  | aggregate
  /-- The direction of a sort key. -/
  | direction
  /-- How a request wants to be answered. -/
  | mode
  /-- A request. -/
  | request
  /-- A message of a streamed answer. -/
  | streamFrame
  /-- An error as the other side reports it. -/
  | remoteError
deriving DecidableEq

/-- What a part is. -/
inductive Shape where
  /-- A truth value. -/
  | bool
  /-- A 64-bit integer. -/
  | int
  /-- An unsigned 64-bit integer. -/
  | natural
  /-- A floating-point number. -/
  | float
  /-- A text. -/
  | text
  /-- A list. -/
  | list (item : Shape)
  /-- A table of named entries. -/
  | table (entry : Shape)
  /-- A compound part. -/
  | sort (name : SortName)

/-- A field of a product. -/
structure Field where
  /-- The name. -/
  name : String
  /-- What is there. -/
  shape : Shape
  /-- Whether nothing may be there. -/
  isOptional : Bool
  /-- What stands for a field that is left out. -/
  fallback : Option Datum

/-- What an alternative holds. -/
inductive Content where
  /-- Nothing. -/
  | empty
  /-- One part. -/
  | single (shape : Shape)
  /-- Named fields. -/
  | fields (fields : List Field)

/-- The parts of a sort. -/
inductive Definition where
  /-- Fields in order. -/
  | product (fields : List Field)
  /-- Alternatives in the order of their numbers. -/
  | choice (alternatives : List (String × Content))

/-- A field that has to be there. -/
def Field.required (name : String) (shape : Shape) : Field := ⟨name, shape, false, none⟩

/-- A field that may hold nothing; left out by name it does. -/
def Field.optional (name : String) (shape : Shape) : Field := ⟨name, shape, true, none⟩

/-- A field with a fallback. -/
def Field.withFallback (name : String) (shape : Shape) (fallback : Datum) : Field :=
  ⟨name, shape, false, some fallback⟩

/-- Alternatives without content. -/
def plainChoice (names : List String) : Definition := .choice (names.map fun n => (n, .empty))

open Payload.Field in
/-- The parts of each sort. -/
def SortName.definition : SortName → Definition
  | .value => .choice [
      ("Null", .empty),
      ("Bool", .single .bool),
      ("Int", .single .int),
      ("Float", .single .float),
      ("Str", .single .text),
      ("Timestamp", .single .text),
      ("List", .single (.list (.sort .value))),
      ("Record", .single (.sort .record)),
      ("Ref", .single .natural)]
  | .record => .product [optional "id" .natural, required "fields" (.table (.sort .value))]
  | .descriptor => .product [
      required "name" .text,
      ⟨"namespace", .text, true, some .absent⟩,
      withFallback "generic_args" (.list (.sort .descriptor)) (.list []),
      withFallback "is_collection" .bool (.bool false),
      withFallback "is_enum" .bool (.bool false),
      withFallback "is_nullable" .bool (.bool false),
      withFallback "members" (.list (.sort .member)) (.list [])]
  | .member => .product [required "name" .text, required "ty" (.sort .descriptor)]
  | .plan => .choice [
      ("Constant", .fields [required "value" (.sort .value), type]),
      ("Member", .fields [
        sub "target", required "declaring" (.sort .descriptor), required "member" .text, type]),
      ("Unary", .fields [required "op" (.sort .unaryOp), sub "operand", type]),
      ("Binary", .fields [required "op" (.sort .binaryOp), sub "left", sub "right", type]),
      ("Conditional", .fields [sub "test", sub "if_true", sub "if_false", type]),
      ("Lambda", .fields [required "params" (.list (.sort .parameter)), sub "body", type]),
      ("Parameter", .single (.sort .parameter)),
      ("MethodCall", .fields [
        required "declaring" (.sort .descriptor), required "method" .text, subs "args", type]),
      ("New", .fields [required "members" (.list .text), subs "args", type]),
      ("NewArray", .fields [subs "items", type]),
      ("ListInit", .fields [subs "items", type]),
      ("MemberInit", .fields [required "bindings" (.list (.sort .binding)), type]),
      ("SortKey", .fields [sub "key", required "direction" (.sort .direction)]),
      ("Query", .fields [required "op" (.sort .stage), type])]
  | .parameter => .product [required "name" .text, type]
  | .binding => .product [required "member" .text, sub "value"]
  | .stage => .choice [
      ("Source", .fields [required "element" (.sort .descriptor)]),
      ("Filter", .fields [sub "source", sub "predicate"]),
      ("Project", .fields [sub "source", sub "selector", required "many" .bool]),
      ("Sort", .fields [sub "source", subs "keys"]),
      ("Skip", .fields [sub "source", required "count" .natural]),
      ("Take", .fields [sub "source", required "count" .natural]),
      ("GroupBy", .fields [sub "source", sub "key", optional "element" (.sort .plan)]),
      ("Join", .fields [
        sub "outer", sub "inner", sub "outer_key", sub "inner_key", sub "result"]),
      ("Include", .fields [sub "source", required "path" .text]),
      ("Aggregate", .fields [
        sub "source", required "func" (.sort .aggregate), optional "argument" (.sort .plan)])]
  | .unaryOp => plainChoice (UnaryOp.all.map UnaryOp.name)
  | .binaryOp => plainChoice (BinaryOp.all.map BinaryOp.name)
  | .aggregate => plainChoice (Aggregate.every.map Aggregate.name)
  | .direction => plainChoice (SortDirection.all.map SortDirection.name)
  | .mode => plainChoice ["Single", "Stream"]
  | .request => .product [required "mode" (.sort .mode), required "expression" (.sort .plan)]
  | .streamFrame => .choice [("Item", .single (.sort .value)), ("End", .empty)]
  | .remoteError => .product [required "message" .text, required "type_name" .text]
where
  /-- The descriptor of the node. -/
  type : Field := .required "ty" (.sort .descriptor)
  /-- A sub-plan. -/
  sub (name : String) : Field := .required name (.sort .plan)
  /-- Sub-plans. -/
  subs (name : String) : Field := .required name (.list (.sort .plan))

/-- The number and the content of the alternative of a name. -/
def findAlternative (name : String) : Nat → List (String × Content) → Option (Nat × Content)
  | _, [] => none
  | index, (n, content) :: rest =>
    if n = name then some (index, content) else findAlternative name (index + 1) rest

end QueryRelay.Payload
