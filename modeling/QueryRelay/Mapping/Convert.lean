import QueryRelay.Error
import QueryRelay.Mapping.Target
import QueryRelay.Text.Blank
import QueryRelay.Value.Basic

/-!
# Lossless conversions

Numbers, truth values, texts, points in time and variants of enumerations from raw values. A number
is taken only when nothing is lost: an integer from a whole floating-point number or from decimal
digits, a floating-point number from an integer that it can hold exactly.
-/

namespace QueryRelay

/-- The 64-bit integer that decimal digits with an optional sign denote. -/
def Int64.ofText? (cs : List Char) : Option Int :=
  let (isNegative, digits) := Binary64.spanSign cs
  if digits.isEmpty || !digits.all Char.isDigit then none
  else
    let n : Int := Binary64.digitsValue 0 digits
    let signed := if isNegative then -n else n
    if Int64.minValue.toInt ≤ signed ∧ signed ≤ Int64.maxValue.toInt then some signed else none

namespace Value

/-- The fault of a value without counterpart. -/
def mismatch (v : Value) (target : String) : MappingFault :=
  ⟨[], .noConversion v.kindName v.render target⟩

/-- The 64-bit integer that a value denotes. -/
def wholeNumber? : Value → Option Int
  | .int n => some n.toInt
  | .float x =>
    match x.toInt? with
    | some n =>
      if Int64.minValue.toInt ≤ n ∧ n ≤ Int64.maxValue.toInt then some n else none
    | none => none
  | .text s => Int64.ofText? (Text.trim s).toList
  | _ => none

/-- A value as an integer of a type. -/
def toInteger (v : Value) (t : IntegerType) : Except MappingFault Int :=
  match v.wholeNumber? with
  | some n => if t.least ≤ n ∧ n ≤ t.greatest then .ok n else .error (v.mismatch t.name)
  | none => .error (v.mismatch t.name)

/-- The floating-point number that a value denotes. -/
def realNumber? : Value → Option Binary64
  | .float x => some x
  | .int n => if n.toInt.natAbs ≤ 9007199254740992 then some (.ofInt n.toInt) else none
  | .text s => Binary64.ofText? (Text.trim s).toList
  | _ => none

/-- A value as a floating-point number of 64 bits. -/
def toDouble (v : Value) : Except MappingFault Binary64 :=
  match v.realNumber? with
  | some x => .ok x
  | none => .error (v.mismatch "f64")

/-- A value as a floating-point number of 32 bits. -/
def toSingle (v : Value) : Except MappingFault Binary64 :=
  match v.realNumber? with
  | some x => if x.fitsBinary32 then .ok x else .error (v.mismatch "f32")
  | none => .error (v.mismatch "f32")

/-- A value as a truth value. -/
def toBool (v : Value) : Except MappingFault Bool :=
  match v with
  | .bool b => .ok b
  | .text s =>
    if Fields.sameName s "true" then .ok true
    else if Fields.sameName s "false" then .ok false
    else .error (v.mismatch "bool")
  | _ => .error (v.mismatch "bool")

/-- A value as a text. -/
def toText (v : Value) : Except MappingFault String :=
  match v with
  | .text s => .ok s
  | .int _ | .float _ | .bool _ | .timestamp _ => .ok v.render
  | _ => .error (v.mismatch "String")

/-- A value as a point in time. -/
def toTimestamp (v : Value) : Except MappingFault Timestamp :=
  match v with
  | .timestamp t => .ok t
  | .text s =>
    match Timestamp.readStrict s with
    | .ok t => .ok t
    | .error _ => .error (v.mismatch "DateTime")
  | _ => .error (v.mismatch "DateTime")

/-- The variant that a value names, or numbers from zero. -/
def variant? (variants : List String) : Value → Option String
  | .text s =>
    (variants.find? fun n => n == s).or (variants.find? fun n => Fields.sameName n s)
  | .int n => if 0 ≤ n.toInt then variants[n.toInt.toNat]? else none
  | _ => none

/-- A value as a variant of an enumeration. -/
def toVariant (v : Value) (name : String) (variants : List String) : Except MappingFault String :=
  match v.variant? variants with
  | some n => .ok n
  | none => .error (v.mismatch name)

end Value
end QueryRelay
