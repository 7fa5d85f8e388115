import CivicLoop.Foundation.Json
import Mathlib

/-!
# Equality of the interpreter

The interpreter compares numbers by their values, whatever their types are, and a truth value is the number 0 or 1.
Dictionaries are equal when they have the same keys with equal values. The value of a float is a parameter.

## Main definitions

* `Number`, `Json.number` : numbers, and the one that a value stands for.
* `Json.pyEq` : equality.

## Main results

* `Json.pyEq_str`, `Json.pyEq_null`, `Json.pyEq_nil`, `Json.pyEq_int` : the values that are equal to a given one.
-/

namespace CivicLoop

/-- The value of a number; a float that is not a number has none. -/
inductive Number
  | finite (value : ℚ)
  | infinite (negative : Bool)
deriving DecidableEq

/-- The values of floats, which are given by their texts. -/
abbrev FloatValues := String → Option Number

namespace Json

variable {D : Type} [DecidableEq D]

/-- The number that a value is. -/
def number (floats : FloatValues) : Json D → Option Number
  | .bool b => some (.finite (if b then 1 else 0))
  | .int n => some (.finite n)
  | .float text => floats text
  | _ => none

/-- Two numbers are given and equal. -/
def sameNumber : Option Number → Option Number → Bool
  | some x, some y => decide (x = y)
  | _, _ => false

@[simp] theorem sameNumber_none (x : Option Number) : sameNumber x none = false := by
  cases x <;> rfl

@[simp] theorem sameNumber_some (x : Option Number) (y : Number) : sameNumber x (some y) = decide (x = some y) := by
  cases x <;> simp [sameNumber]

mutual

/-- `==`. -/
def pyEq (floats : FloatValues) : Json D → Json D → Bool
  | .null, .null => true
  | .str t, .str t' => decide (t = t')
  | .arr items, .arr items' => pyEqList floats items items'
  | .obj items, .obj items' => items.length == items'.length && pyEqItems floats items items'
  | j, j' => sameNumber (j.number floats) (j'.number floats)

def pyEqList (floats : FloatValues) : List (Json D) → List (Json D) → Bool
  | [], [] => true
  | j :: items, j' :: items' => pyEq floats j j' && pyEqList floats items items'
  | _, _ => false

/-- The items of a dictionary are in another one. -/
def pyEqItems (floats : FloatValues) : List (String × Json D) → List (String × Json D) → Bool
  | [], _ => true
  | (key, j) :: items, items' =>
    (match items'.lookup key with
    | some j' => pyEq floats j j'
    | none => false) && pyEqItems floats items items'

end

variable {floats : FloatValues} {j : Json D}

theorem pyEq_str {t : Text D} : pyEq floats j (.str t) = true ↔ j = .str t := by
  cases j <;> simp [pyEq, number]

theorem pyEq_null : pyEq floats j .null = true ↔ j = .null := by
  cases j <;> simp [pyEq, number]

theorem pyEq_nil : pyEq floats j (.arr []) = true ↔ j = .arr [] := by
  cases j with
  | arr items => cases items <;> simp [pyEq, pyEqList]
  | _ => simp [pyEq, number]

/-- A value that is equal to an integer is a number with its value. -/
theorem pyEq_int {n : ℤ} : pyEq floats j (.int n) = true ↔ j.number floats = some (.finite n) := by
  cases j <;> simp [pyEq, number]

end Json

end CivicLoop
