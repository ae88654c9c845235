import Mathlib.Data.Rat.Defs
import Mathlib.Algebra.Order.Ring.Rat
import Mathlib.Algebra.Order.Ring.Cast
import Pmbah.Js.Text

/-!
# JSON values

The values `JSON.parse` can return.  A number is a rational or an infinity:
no modelled function tells `-0` from `0`, and `JSON.parse` never returns NaN.
An object lists its own fields in insertion order; `undefined` is an absent
field.
-/

namespace Pmbah.Js

/-- `Number.MAX_SAFE_INTEGER`. -/
def maxSafeInteger : Nat := 9007199254740991

inductive JsNumber where
  | finite (value : ℚ)
  | infinite (negative : Bool)
  deriving DecidableEq

inductive Json where
  | null
  | bool (value : Bool)
  | num (value : JsNumber)
  | str (value : JsString)
  | arr (items : List Json)
  | obj (fields : List (JsString × Json))

/-- A thrown `TypeError`, `RangeError` or plain `Error`. -/
inductive JsError where
  | typeError (message : JsString)
  | rangeError (message : JsString)
  | error (message : JsString)
  deriving DecidableEq

def JsError.message : JsError → JsString
  | .typeError message => message
  | .rangeError message => message
  | .error message => message

theorem bind_eq_ok {α β : Type} {x : Except JsError α} {f : α → Except JsError β} {b : β} :
    (x >>= f) = .ok b ↔ ∃ a, x = .ok a ∧ f a = .ok b := by
  cases x with
  | error thrown => simp [bind, Except.bind]
  | ok a => simp [bind, Except.bind]

namespace JsNumber

def ofInt (z : Int) : JsNumber := finite (Rat.ofInt z)

def ofNat (n : Nat) : JsNumber := ofInt n

/-- The integer a number is, when `Number.isInteger` holds of it. -/
def toInt? : JsNumber → Option Int
  | finite q => if q.den = 1 then some q.num else none
  | infinite _ => none

/-- The `<` of two numbers. -/
def lt : JsNumber → JsNumber → Bool
  | finite a, finite b => a < b
  | finite _, infinite negative => !negative
  | infinite negative, finite _ => negative
  | infinite a, infinite b => a && !b

@[simp] theorem toInt?_ofInt (z : Int) : (ofInt z).toInt? = some z := rfl

@[simp] theorem toInt?_ofNat (n : Nat) : (ofNat n).toInt? = some (n : Int) := rfl

theorem eq_ofInt_of_toInt? {x : JsNumber} {z : Int} (h : x.toInt? = some z) :
    x = ofInt z := by
  cases x with
  | infinite negative => simp [toInt?] at h
  | finite q =>
      simp only [toInt?] at h
      split at h
      · rename_i hden
        simp only [Option.some.injEq] at h
        have hq : q = Rat.ofInt z := by
          apply Rat.ext
          · exact h
          · exact hden
        rw [hq, ofInt]
      · simp at h

theorem ofInt_injective : Function.Injective ofInt := by
  intro a b h
  have := congrArg toInt? h
  simpa using this

@[simp] theorem lt_ofInt (a b : Int) : (ofInt a).lt (ofInt b) = decide (a < b) := by
  simp only [ofInt, lt]
  congr 1
  exact propext (by simpa only [Rat.ofInt_eq_cast] using Int.cast_lt (R := ℚ))

end JsNumber

namespace Json

/-- An own field of an object; `none` is `undefined`. -/
def field (value : Json) (key : JsString) : Option Json :=
  match value with
  | obj fields => fields.lookup key
  | _ => none

/-- `Object.keys`. -/
def keys : Json → List JsString
  | obj fields => fields.map Prod.fst
  | _ => []

/-- `key in value`, for keys that `Object.prototype` does not have. -/
def hasField (value : Json) (key : JsString) : Bool := (value.field key).isSome

/-- `{ ...value, [key]: inner }` of a value that has been checked to be an object. -/
def withField (value : Json) (key : JsString) (inner : Json) : Json :=
  match value with
  | .obj fields =>
      if value.hasField key then
        .obj (fields.map fun field => if field.1 = key then (key, inner) else field)
      else .obj (fields ++ [(key, inner)])
  | _ => .obj [(key, inner)]

def isPlainObject : Json → Bool
  | obj _ => true
  | _ => false

/-- The object literal with these fields, the `undefined` ones dropped. -/
def ofFields (fields : List (JsString × Option Json)) : Json :=
  obj (fields.filterMap fun entry => entry.2.map fun value => (entry.1, value))

def ofInt (z : Int) : Json := num (.ofInt z)

def ofNat (n : Nat) : Json := num (.ofNat n)

/-- `null` or the value. -/
def orNull : Option Json → Json
  | none => null
  | some value => value

def number? : Option Json → Option JsNumber
  | some (num value) => some value
  | _ => none

def text? : Option Json → Option JsString
  | some (str value) => some value
  | _ => none

/-- An integer field of a value that has been validated to have one. -/
def natAt (value : Json) (key : JsString) : Nat :=
  (((number? (value.field key)).bind JsNumber.toInt?).map Int.toNat).getD 0

/-- A string field of a value that has been validated to have one. -/
def textAt (value : Json) (key : JsString) : JsString :=
  (text? (value.field key)).getD []

/-- Whether a value is truthy. -/
def truthy : Json → Bool
  | null => false
  | bool value => value
  | num value => value ≠ .ofInt 0
  | str value => !value.isEmpty
  | arr _ => true
  | obj _ => true

mutual

/-- Converting the value to a primitive throws.  A plain object converts
through its `toString`, and an own field of that name is never callable; an
array converts through `join`, which converts its elements. -/
def conversionThrows : Json → Bool
  | obj fields => fields.any fun entry => entry.1 == js "toString"
  | arr items => anyConversionThrows items
  | _ => false

def anyConversionThrows : List Json → Bool
  | [] => false
  | item :: items => conversionThrows item || anyConversionThrows items

end

mutual

/-- The fields of every object in the value have distinct keys, as after `JSON.parse`. -/
def wellFormed : Json → Bool
  | obj fields => decide (fields.map Prod.fst).Nodup && fieldsWellFormed fields
  | arr items => itemsWellFormed items
  | _ => true

def itemsWellFormed : List Json → Bool
  | [] => true
  | item :: items => wellFormed item && itemsWellFormed items

def fieldsWellFormed : List (JsString × Json) → Bool
  | [] => true
  | (_, value) :: fields => wellFormed value && fieldsWellFormed fields

end

theorem wellFormed_of_lookup {fields : List (JsString × Json)} {key : JsString} {value : Json}
    (h : fieldsWellFormed fields = true) (hlookup : fields.lookup key = some value) :
    value.wellFormed = true := by
  induction fields with
  | nil => simp at hlookup
  | cons entry fields ih =>
      obtain ⟨name, first⟩ := entry
      simp only [fieldsWellFormed, Bool.and_eq_true] at h
      rw [List.lookup_cons] at hlookup
      split at hlookup
      · cases hlookup
        exact h.1
      · exact ih h.2 hlookup

theorem wellFormed_of_field {value inner : Json} {key : JsString}
    (h : value.wellFormed = true) (hfield : value.field key = some inner) :
    inner.wellFormed = true := by
  cases value with
  | obj fields =>
      simp only [wellFormed, Bool.and_eq_true] at h
      exact wellFormed_of_lookup h.2 hfield
  | null | bool _ | num _ | str _ | arr _ => simp [field] at hfield

theorem nodup_keys_of_wellFormed {value : Json} (h : value.wellFormed = true) :
    value.keys.Nodup := by
  cases value with
  | obj fields =>
      simp only [wellFormed, Bool.and_eq_true, decide_eq_true_eq] at h
      exact h.1
  | null | bool _ | num _ | str _ | arr _ => simp [keys]

def conversionError : JsError := .typeError (js "Cannot convert object to primitive value")

end Json

end Pmbah.Js
