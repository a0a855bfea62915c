import QueryRelay.Error

/-!
# Cancellation

A signal asks a query to stop. Whoever holds a signal may cancel it, all holders of one signal see
the same, and a cancelled signal stays cancelled. `Signals` holds the state of numbered signals.
-/

namespace QueryRelay

/-- Whether a query was asked to stop. -/
structure Signal where
  /-- Whether it was. -/
  isCancelled : Bool
deriving DecidableEq, Inhabited

namespace Signal

/-- A signal that nobody cancelled. -/
def clear : Signal := ⟨false⟩

/-- Ask to stop. -/
def cancel (_ : Signal) : Signal := ⟨true⟩

/-- Go on only if nobody asked to stop. -/
def check (s : Signal) : Except Error Unit := if s.isCancelled then .error .cancelled else .ok ()

end Signal

/-- The signals of several queries. A holder knows its signal by number. -/
structure Signals where
  /-- The signals in order. -/
  all : List Signal
deriving Inhabited

namespace Signals

/-- So many signals that nobody cancelled. -/
def clear (count : Nat) : Signals := ⟨List.replicate count Signal.clear⟩

/-- The state that holders of a signal see. -/
def get (s : Signals) (number : Nat) : Signal := (s.all[number]?).getD .clear

/-- Cancel a signal for all its holders. -/
def cancel (s : Signals) (number : Nat) : Signals := ⟨s.all.modify number Signal.cancel⟩

end Signals
end QueryRelay
