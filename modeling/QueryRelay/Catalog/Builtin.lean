import QueryRelay.Expr.Basic
import QueryRelay.Number.Arithmetic
import QueryRelay.Text.Blank
import QueryRelay.Text.Casing

/-!
# Built-in functions

The functions that every catalog knows: tests and maps of texts, rounding of numbers, and the
addition of days. A function checks its arguments itself; arguments beyond those that it reads are
ignored.
-/

namespace QueryRelay

/-- Whether one list of characters occurs within another. -/
def occursIn (part : List Char) : List Char → Bool
  | [] => part.isEmpty
  | c :: rest => part.isPrefixOf (c :: rest) || occursIn part rest

namespace Function

/-- The text at a place in the arguments of a function. -/
def textArgument (function : String) (args : List Value) (index : Nat) : Except Error String :=
  match args[index]?.bind Value.asText? with
  | some s => .ok s
  | none => .error (.execution (.notText function index))

/-- The number at a place in the arguments of a function. -/
def numberArgument (function : String) (args : List Value) (index : Nat) : Except Error Binary64 :=
  match args[index]?.bind Value.asFloat? with
  | some x => .ok x
  | none => .error (.execution (.notNumber function index))

/-- A function on texts that compares a text with another one. -/
def textTest (name : String) (test : List Char → List Char → Bool) : Function where
  declaring := .text
  name := name
  returns := .bool
  body := some fun args => do
    let s ← textArgument name args 0
    let t ← textArgument name args 1
    return .bool (test s.toList t.toList)

/-- A function from texts to texts. -/
def textMap (name : String) (map : String → String) : Function where
  declaring := .text
  name := name
  returns := .text
  body := some fun args => return .text (map (← textArgument name args 0))

/-- A function from numbers to numbers. -/
def numberMap (name : String) (map : Binary64 → Binary64) : Function where
  declaring := .float
  name := name
  returns := .float
  body := some fun args => return .float (map (← numberArgument name args 0))

/-- The absolute value of an integer, which has to be an integer again. -/
def absoluteInt (args : List Value) : Except Error Value :=
  match args with
  | .int n :: _ =>
    if n = Int64.minValue then .error (.execution .absOverflow) else .ok (.int n.abs)
  | _ => .error (.execution .absKind)

/-- A point in time some days later. -/
def addDays (args : List Value) : Except Error Value :=
  match args with
  | .timestamp t :: .int days :: _ =>
    match t.addDays? days.toInt with
    | some u => .ok (.timestamp u)
    | none => .error (.execution .addDaysRange)
  | _ => .error (.execution .addDaysKinds)

/-- The built-in functions. -/
def builtins : List Function := [
  textTest "Contains" fun s part => occursIn part s,
  textTest "StartsWith" fun s part => part.isPrefixOf s,
  textTest "EndsWith" fun s part => part.isSuffixOf s,
  textMap "ToUpper" Text.toUpper,
  textMap "ToLower" Text.toLower,
  textMap "Trim" Text.trim,
  ⟨.int, "Abs", .int, some absoluteInt⟩,
  numberMap "Abs" Binary64.abs,
  numberMap "Round" Binary64.round,
  numberMap "Floor" Binary64.floor,
  ⟨.timestamp, "AddDays", .timestamp, some addDays⟩]

/-- The built-in function of a type and a name. -/
def builtin? (declaring : Ty) (name : String) : Option Function :=
  builtins.find? fun f => f.declaring == declaring && f.name == name

/-- A function known by its signature only. -/
def declared (declaring : Ty) (name : String) (returns : Ty) : Function :=
  ⟨declaring, name, returns, none⟩

end Function
end QueryRelay
