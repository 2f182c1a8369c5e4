import Mathlib.Data.Rat.Defs
import Mathlib.Data.Prod.Basic

/-!
# JSON values as Python sees them

What `json.loads` gives, with the few operations that code makes of a value whose shape it
does not know: `dict.get`, the truth of a value, a comparison with an integer.
-/

/-- A JSON value. -/
inductive Json
  | null
  | bool (value : Bool)
  | int (value : Int)
  /-- A float, which is a rational number or not finite. -/
  | float (value : Option ℚ)
  | str (value : String)
  | arr (items : List Json)
  /-- A dict, with one entry for a key. -/
  | obj (fields : List (String × Json))

namespace Json

/-- The exceptions such operations raise. -/
inductive PyError
  | attributeError
deriving DecidableEq, Repr

/-- `value.get(key, fallback)`. -/
def get (value : Json) (key : String) (fallback : Json) : Except PyError Json :=
  match value with
  | .obj fields => .ok ((fields.lookup key).getD fallback)
  | _ => .error .attributeError

/-- `bool(value)`. -/
def truthy : Json → Bool
  | .null => false
  | .bool value => value
  | .int value => value ≠ 0
  | .float value => value ≠ some 0
  | .str value => value ≠ ""
  | .arr items => !items.isEmpty
  | .obj fields => !fields.isEmpty

/-- `value is None`. -/
def isNone : Json → Bool
  | .null => true
  | _ => false

/-- `value == n`, for an integer. -/
def eqInt (n : Int) : Json → Bool
  | .bool value => (if value then 1 else 0) = n
  | .int value => value = n
  | .float value => value = some (n : ℚ)
  | _ => false

theorem bind_ok {α β ε : Type} {x : Except ε α} {f : α → Except ε β} {b : β}
    (h : (x >>= f) = .ok b) : ∃ a, x = .ok a ∧ f a = .ok b := by
  cases x with
  | error e => cases h
  | ok a => exact ⟨a, rfl, h⟩

theorem get_eq_ok_iff {value fallback got : Json} {key : String} :
    value.get key fallback = .ok got ↔
      ∃ fields, value = .obj fields ∧ (fields.lookup key).getD fallback = got := by
  cases value with
  | obj fields =>
      constructor
      · intro h
        exact ⟨fields, rfl, Except.ok.inj h⟩
      · rintro ⟨fields', hfields, rfl⟩
        rw [Json.obj.inj hfields]
        rfl
  | _ =>
      constructor
      · intro h
        cases h
      · rintro ⟨_, hfields, -⟩
        cases hfields

theorem get_of_not_truthy {value got fallback : Json} {key : String}
    (hfalsy : value.truthy = false) (hget : value.get key fallback = .ok got) :
    got = fallback := by
  cases value with
  | obj fields =>
      cases fields with
      | nil => exact (Except.ok.inj hget).symm
      | cons => cases hfalsy
  | _ => cases hget

end Json
