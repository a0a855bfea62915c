import QueryRelay.Error
import QueryRelay.Number.Arithmetic
import QueryRelay.Value.Order

/-!
# Operations on values

What the operators of the language do to values. Null is an answer of its own: it passes through
negation and arithmetic, counts as false in a test, and is in no order relation with anything.
Integers never wrap; a result that is no 64-bit integer is a fault.
-/

namespace QueryRelay

/-- The integer that a number is, if it fits 64 bits. -/
def Int64.ofInt? (n : Int) : Option Int64 :=
  if Int64.minValue.toInt ≤ n ∧ n ≤ Int64.maxValue.toInt then some (Int64.ofInt n) else none

/-- The name of the key in a group. -/
def groupKey : String := "Key"

/-- The name of the elements in a group. -/
def groupElements : String := "Elements"

namespace Value

/-- The group of a key. -/
def group (key : Value) (elements : List Value) : Value :=
  .record none [(groupKey, key), (groupElements, .list elements)]

/-- The elements of a value: those of a list or a group, and none of null. -/
def elements : Value → Except Error (List Value)
  | .list items => .ok items
  | .null => .ok []
  | .record _ fields =>
    match Fields.get? fields groupElements, Fields.get? fields groupKey with
    | some (.list items), some _ => .ok items
    | _, _ => .error (.execution .recordNotSequence)
  | v => .error (.execution (.notSequence v.kindName))

/-- A value as the outcome of a test. -/
def truth : Value → Except Error Bool
  | .bool b => .ok b
  | .null => .ok false
  | v => .error (.execution (.notBoolean v.kindName))

/-- A value as a number of elements. -/
def count : Value → Except Error Nat
  | .int n =>
    if 0 ≤ n.toInt then .ok n.toInt.toNat else .error (.execution (.negativeCount n.toInt))
  | v => .error (.execution (.countKind v.kindName))

/-- A member of a value. A record answers null for a field that it lacks. -/
def member (target : Value) (name : String) : Except Error Value :=
  match target with
  | .null => .ok .null
  | .record _ fields => .ok ((Fields.lookup? fields name).getD .null)
  | .text s =>
    if name = "Length" then .ok (.int (.ofNat s.length)) else missing
  | .list items =>
    if name = "Count" then .ok (.int (.ofNat items.length)) else missing
  | .timestamp t =>
    if name = "Year" then .ok (.int (.ofInt t.date.year))
    else if name = "Month" then .ok (.int (.ofNat t.date.month))
    else if name = "Day" then .ok (.int (.ofNat t.date.day))
    else missing
  | _ => missing
where
  /-- The fault of a kind of value without this member. -/
  missing : Except Error Value := .error (.execution (.noMember target.kindName name))

end Value

/-- Apply an operator to one value. -/
def UnaryOp.apply (op : UnaryOp) (v : Value) : Except Error Value :=
  match op, v with
  | _, .null => .ok .null
  | .not, v => v.truth.map fun b => .bool !b
  | .negate, .int n =>
    match Int64.ofInt? (-n.toInt) with
    | some m => .ok (.int m)
    | none => .error (.execution .negationOverflow)
  | .negate, .float x => .ok (.float x.negate)
  | .negate, v => .error (.execution (.cannotNegate v.kindName))

namespace BinaryOp

/-- The integer that an operator yields, or the fault of an operator that leaves the integers. -/
def checked (op : BinaryOp) (n : Int) : Except Error Value :=
  match Int64.ofInt? n with
  | some m => .ok (.int m)
  | none => .error (.execution (.overflow op))

/-- Arithmetic on integers. Division goes toward zero; a remainder is a fault exactly where the
quotient is. -/
def onInts (op : BinaryOp) (m n : Int) : Except Error Value :=
  match op with
  | .add => op.checked (m + n)
  | .sub => op.checked (m - n)
  | .mul => op.checked (m * n)
  | .div =>
    if n = 0 then .error (.execution .divisionByZero) else op.checked (m.tdiv n)
  | .rem =>
    if n = 0 then .error (.execution .divisionByZero)
    else (op.checked (m.tdiv n)).bind fun _ => op.checked (m.tmod n)
  | _ => .error (.execution (.unsupportedOperator op))

/-- Arithmetic on floating-point numbers. -/
def onFloats (op : BinaryOp) (x y : Binary64) : Except Error Value :=
  match op with
  | .add => .ok (.float (x.add y))
  | .sub => .ok (.float (x.sub y))
  | .mul => .ok (.float (x.mul y))
  | .div => .ok (.float (x.div y))
  | .rem => .ok (.float (x.rem y))
  | _ => .error (.execution (.unsupportedOperator op))

/-- Arithmetic on numbers, of which two integers stay integers. -/
def onNumbers (op : BinaryOp) (l r : Value) : Except Error Value :=
  match l, r with
  | .int m, .int n => op.onInts m.toInt n.toInt
  | l, r =>
    match l.asFloat?, r.asFloat? with
    | some x, some y => op.onFloats x y
    | _, _ => .error (.execution (.operandKinds op l.kindName r.kindName))

/-- Whether a value is a text. -/
def isText : Value → Bool
  | .text _ => true
  | _ => false

/-- Arithmetic. Null with anything is null, and a text is added to anything by concatenation. -/
def arithmetic (op : BinaryOp) (l r : Value) : Except Error Value :=
  if l.isNull || r.isNull then .ok .null
  else if op = .add ∧ (isText l || isText r) then .ok (.text (l.concatText ++ r.concatText))
  else op.onNumbers l r

/-- Whether an order relation holds between two values that compare in this way. -/
def holds (op : BinaryOp) (o : Ordering) : Bool :=
  match op with
  | .lt => o == .lt
  | .le => o != .gt
  | .gt => o == .gt
  | _ => o != .lt

/-- Apply an operator to two values that are both there. -/
def apply (op : BinaryOp) (l r : Value) : Except Error Value :=
  match op with
  | .eq => .ok (.bool (l.looselyEquals r))
  | .ne => .ok (.bool !(l.looselyEquals r))
  | .lt | .le | .gt | .ge =>
    .ok (.bool (!l.isNull && !r.isNull && op.holds (l.compareTotal r)))
  | _ => op.arithmetic l r

end BinaryOp
end QueryRelay
