namespace Forecast

/-- What makes the program break off without an answer. -/
inductive Abort where
  -- a word is measured in bytes, and the measure ends inside a character
  | splitCharacter
  -- what stands behind the point of a clock time makes no number
  | malformedFraction
  -- days or seconds counted out leave the calendar
  | offCalendar
  -- no list has room for so many snapshots
  | capacity
  deriving DecidableEq

/-- An answer, an error that is told, or nothing at all where the program breaks off. -/
inductive Result (ε α : Type) where
  | ok (a : α)
  | error (e : ε)
  | aborted (why : Abort)
  deriving DecidableEq

namespace Result

variable {ε ε' α β : Type}

def ofExcept : Except ε α → Result ε α
  | .ok a => ok a
  | .error e => error e

def map (f : α → β) : Result ε α → Result ε β
  | ok a => ok (f a)
  | error e => error e
  | aborted why => aborted why

def mapError (f : ε → ε') : Result ε α → Result ε' α
  | ok a => ok a
  | error e => error (f e)
  | aborted why => aborted why

def bind (x : Result ε α) (f : α → Result ε β) : Result ε β :=
  match x with
  | ok a => f a
  | error e => error e
  | aborted why => aborted why

def toOption : Result ε α → Option α
  | ok a => some a
  | error _ | aborted _ => none

def abort? : Result ε α → Option Abort
  | aborted why => some why
  | ok _ | error _ => none

instance : Monad (Result ε) where
  pure := ok
  bind := bind
  map := map

instance : MonadExceptOf ε (Result ε) where
  throw := error
  tryCatch
    | error e, handle => handle e
    | x, _ => x

theorem map_eq_ok_iff {f : α → β} {x : Result ε α} {b : β} :
    x.map f = ok b ↔ ∃ a, x = ok a ∧ f a = b := by
  cases x <;> simp [map]

theorem map_eq_error_iff {f : α → β} {x : Result ε α} {e : ε} :
    x.map f = error e ↔ x = error e := by
  cases x <;> simp [map]

theorem map_eq_aborted_iff {f : α → β} {x : Result ε α} {why : Abort} :
    x.map f = aborted why ↔ x = aborted why := by
  cases x <;> simp [map]

theorem ofExcept_eq_ok_iff {x : Except ε α} {a : α} : ofExcept x = ok a ↔ x = .ok a := by
  cases x <;> simp [ofExcept]

theorem ofExcept_eq_error_iff {x : Except ε α} {e : ε} : ofExcept x = error e ↔ x = .error e := by
  cases x <;> simp [ofExcept]

theorem ofExcept_ne_aborted {x : Except ε α} {why : Abort} : ofExcept x ≠ aborted why := by
  cases x <;> simp [ofExcept]

theorem exists_ok_of_isSome {x : Result ε α} (h : x.toOption.isSome = true) : ∃ a, x = ok a := by
  cases x with
  | ok a => exact ⟨a, rfl⟩
  | error e => cases h
  | aborted why => cases h

end Result

end Forecast
