import Pmbah.Js.Double
import Pmbah.Platform

/-!
# Reading JSON text

`JSON.parse`, by recursive descent.  How numbers are read depends on their
floating point form, so that is left open: all that is said of it is that it
reads an integer that is a double as the platform writes it.
-/

namespace Pmbah.Js

/-! ## Strings -/

def hexValue (unit : UInt16) : Option Nat :=
  if 48 ≤ unit.toNat ∧ unit.toNat ≤ 57 then some (unit.toNat - 48)
  else if 97 ≤ unit.toNat ∧ unit.toNat ≤ 102 then some (unit.toNat - 87)
  else if 65 ≤ unit.toNat ∧ unit.toNat ≤ 70 then some (unit.toNat - 55)
  else none

/-- The code unit of four hexadecimal digits. -/
def unitOfHex (a b c d : UInt16) : Option UInt16 := do
  let a ← hexValue a
  let b ← hexValue b
  let c ← hexValue c
  let d ← hexValue d
  pure (UInt16.ofNat (a * 0x1000 + b * 0x100 + c * 16 + d))

/-- The code unit of a short escape. -/
def unitOfEscape (escape : UInt16) : Option UInt16 :=
  if escape = 34 ∨ escape = 92 ∨ escape = 47 then some escape
  else if escape = 98 then some 8
  else if escape = 102 then some 12
  else if escape = 110 then some 10
  else if escape = 114 then some 13
  else if escape = 116 then some 9
  else none

/-- A string literal after its opening quote, and the text after it. -/
def readString : JsString → Option (JsString × JsString)
  | [] => none
  | unit :: rest =>
      if unit = 34 then some ([], rest)
      else if unit = 92 then
        match rest with
        | [] => none
        | escape :: rest =>
            if escape = 117 then
              match rest with
              | a :: b :: c :: d :: rest =>
                  match unitOfHex a b c d with
                  | none => none
                  | some escaped => (readString rest).map fun read => (escaped :: read.1, read.2)
              | _ => none
            else
              match unitOfEscape escape with
              | none => none
              | some escaped => (readString rest).map fun read => (escaped :: read.1, read.2)
      else if unit.toNat < 0x20 then none
      else (readString rest).map fun read => (unit :: read.1, read.2)

/-! ## Numbers -/

/-- A unit that may stand in a number. -/
def isNumberUnit (unit : UInt16) : Prop :=
  isDigitUnit unit ∨ unit = 43 ∨ unit = 45 ∨ unit = 46 ∨ unit = 69 ∨ unit = 101

instance (unit : UInt16) : Decidable (isNumberUnit unit) := by
  unfold isNumberUnit
  infer_instance

/-- The number is over where the text ends or goes on with another unit. -/
def EndsNumber (rest : JsString) : Prop := ∀ unit ∈ rest.head?, ¬ isNumberUnit unit

/-- How `JSON.parse` reads the numbers of a platform. -/
structure NumberSyntax (P : Platform) where
  read : JsString → Option (JsNumber × JsString)
  starts : ∀ z : Int, isDouble z = true →
    ∃ unit rest, P.numberToString (.ofInt z) = unit :: rest ∧ (unit = 45 ∨ isDigitUnit unit)
  reads : ∀ (z : Int) (rest : JsString), isDouble z = true → EndsNumber rest →
    read (P.numberToString (.ofInt z) ++ rest) = some (.ofInt z, rest)

/-! ## Values -/

def isSpaceUnit (unit : UInt16) : Bool := unit == 32 || unit == 9 || unit == 10 || unit == 13

def skipSpace (text : JsString) : JsString := text.dropWhile isSpaceUnit

/-- A literal that starts the text. -/
def readLiteral (literal : JsString) (value : Json) (text : JsString) :
    Option (Json × JsString) :=
  if literal.isPrefixOf text then some (value, text.drop literal.length) else none

/-- A field before others; of one key the last value counts. -/
def addField (key : JsString) (value : Json) (fields : List (JsString × Json)) :
    List (JsString × Json) :=
  (key, (fields.lookup key).getD value) :: fields.filter fun field => field.1 ≠ key

variable {P : Platform}

mutual

def parseValue (numbers : NumberSyntax P) : Nat → JsString → Option (Json × JsString)
  | 0, _ => none
  | fuel + 1, text =>
      match skipSpace text with
      | [] => none
      | unit :: rest =>
          if unit = 34 then (readString rest).map fun read => (.str read.1, read.2)
          else if unit = 91 then
            match skipSpace rest with
            | [] => none
            | next :: after =>
                if next = 93 then some (.arr [], after)
                else (parseItems numbers fuel (next :: after)).map fun read =>
                  (.arr read.1, read.2)
          else if unit = 123 then
            match skipSpace rest with
            | [] => none
            | next :: after =>
                if next = 125 then some (.obj [], after)
                else (parseFields numbers fuel (next :: after)).map fun read =>
                  (.obj read.1, read.2)
          else if unit = 116 then readLiteral (js "true") (.bool true) (unit :: rest)
          else if unit = 102 then readLiteral (js "false") (.bool false) (unit :: rest)
          else if unit = 110 then readLiteral (js "null") .null (unit :: rest)
          else (numbers.read (unit :: rest)).map fun read => (.num read.1, read.2)

/-- The elements of an array up to its end. -/
def parseItems (numbers : NumberSyntax P) : Nat → JsString → Option (List Json × JsString)
  | 0, _ => none
  | fuel + 1, text =>
      match parseValue numbers fuel text with
      | none => none
      | some (item, after) =>
          match skipSpace after with
          | [] => none
          | next :: after =>
              if next = 44 then
                (parseItems numbers fuel after).map fun read => (item :: read.1, read.2)
              else if next = 93 then some ([item], after)
              else none

/-- The fields of an object up to its end. -/
def parseFields (numbers : NumberSyntax P) :
    Nat → JsString → Option (List (JsString × Json) × JsString)
  | 0, _ => none
  | fuel + 1, text =>
      match skipSpace text with
      | [] => none
      | quote :: rest =>
          if quote ≠ 34 then none
          else
            match readString rest with
            | none => none
            | some (key, after) =>
                match skipSpace after with
                | [] => none
                | colon :: after =>
                    if colon ≠ 58 then none
                    else
                      match parseValue numbers fuel after with
                      | none => none
                      | some (value, after) =>
                          match skipSpace after with
                          | [] => none
                          | next :: after =>
                              if next = 44 then
                                (parseFields numbers fuel after).map fun read =>
                                  (addField key value read.1, read.2)
                              else if next = 125 then some ([(key, value)], after)
                              else none

end

/-- `JSON.parse`; `none` when it throws. -/
def jsonParse (numbers : NumberSyntax P) (text : JsString) : Option Json :=
  match parseValue numbers (text.length + 1) text with
  | none => none
  | some (value, rest) => if (skipSpace rest).isEmpty then some value else none

/-! ## An instance -/

/-- The platform that writes every integer in decimal digits. -/
def decimalPlatform : Platform :=
  { Platform.standard with
    numberText := fun value =>
      match value.toInt? with
      | some z => if z < 0 then js "-" ++ natText z.natAbs else natText z.natAbs
      | none => js "NaN" }

/-- The number that decimal digits write. -/
def digitsValue (digits : JsString) : Nat :=
  digits.foldl (fun value unit => 10 * value + (unit.toNat - 48)) 0

def readDecimal : JsString → Option (JsNumber × JsString)
  | [] => none
  | unit :: rest =>
      if unit = 45 then
        some (.ofInt (-digitsValue (rest.takeWhile fun next => decide (isDigitUnit next))),
          rest.dropWhile fun next => decide (isDigitUnit next))
      else if isDigitUnit unit then
        some (.ofInt (digitsValue
            ((unit :: rest).takeWhile fun next => decide (isDigitUnit next))),
          (unit :: rest).dropWhile fun next => decide (isDigitUnit next))
      else none

theorem digitsValue_natText (n : Nat) : digitsValue (natText n) = n := by
  have hvalue : digitsValue (natText n) = Nat.ofDigitChars 10 (Nat.toDigits 10 n) 0 := by
    rw [digitsValue, natText, List.foldl_map, Nat.ofDigitChars_eq_foldl]
    apply List.foldl_ext
    intro value c hc
    have hdigit := toNat_of_isDigit (Nat.isDigit_of_mem_toDigits (by omega) (by omega) hc)
    rw [UInt16.toNat_ofNat', Nat.mod_eq_of_lt (by omega)]
    rfl
  rw [hvalue, Nat.ofDigitChars_ten_toDigits]

theorem isNumberUnit_of_digit {unit : UInt16} (h : isDigitUnit unit) : isNumberUnit unit :=
  Or.inl h

/-- Digits are read up to the end of the number. -/
theorem takeWhile_digits {digits rest : JsString} (h : ∀ unit ∈ digits, isDigitUnit unit)
    (hends : EndsNumber rest) :
    (digits ++ rest).takeWhile (fun next => decide (isDigitUnit next)) = digits ∧
      (digits ++ rest).dropWhile (fun next => decide (isDigitUnit next)) = rest := by
  have hall : ∀ unit ∈ digits, decide (isDigitUnit unit) = true := fun unit hunit =>
    decide_eq_true (h unit hunit)
  rw [List.takeWhile_append_of_pos hall, List.dropWhile_append_of_pos hall]
  cases rest with
  | nil => simp
  | cons unit rest =>
      have hunit : ¬ isDigitUnit unit := fun hdigit =>
        hends unit rfl (isNumberUnit_of_digit hdigit)
      rw [List.takeWhile_cons_of_neg (by simpa using hunit),
        List.dropWhile_cons_of_neg (by simpa using hunit), List.append_nil]
      exact ⟨rfl, rfl⟩

theorem decimalPlatform_numberToString (z : Int) :
    decimalPlatform.numberToString (.ofInt z) =
      if z < 0 then js "-" ++ natText z.natAbs else natText z.natAbs := by
  rw [Platform.numberToString, JsNumber.toInt?_ofInt]
  exact ite_self _

theorem natText_cons (n : Nat) : ∃ unit rest, natText n = unit :: rest ∧ isDigitUnit unit := by
  cases h : natText n with
  | nil => exact absurd h (natText_ne_nil n)
  | cons unit rest =>
      refine ⟨unit, rest, rfl, isDigitUnit_of_mem_natText (n := n) ?_⟩
      rw [h]
      exact List.mem_cons_self

def decimalSyntax : NumberSyntax decimalPlatform where
  read := readDecimal
  starts z _ := by
    rw [decimalPlatform_numberToString]
    by_cases hz : z < 0
    · rw [if_pos hz]
      exact ⟨45, natText z.natAbs, rfl, Or.inl rfl⟩
    · rw [if_neg hz]
      obtain ⟨unit, rest, htext, hdigit⟩ := natText_cons z.natAbs
      exact ⟨unit, rest, htext, Or.inr hdigit⟩
  reads z rest _ hends := by
    have hdigits := takeWhile_digits
      (fun unit hunit => isDigitUnit_of_mem_natText (n := z.natAbs) hunit) hends
    rw [decimalPlatform_numberToString]
    by_cases hz : z < 0
    · rw [if_pos hz]
      show readDecimal (45 :: (natText z.natAbs ++ rest)) = _
      rw [readDecimal, if_pos rfl, hdigits.1, hdigits.2, digitsValue_natText]
      have hvalue : -(z.natAbs : Int) = z := by omega
      rw [hvalue]
    · rw [if_neg hz]
      obtain ⟨unit, digits, htext, hdigit⟩ := natText_cons z.natAbs
      have hminus : unit ≠ 45 := by
        intro hunit
        subst hunit
        exact absurd hdigit (by decide)
      rw [htext] at hdigits ⊢
      rw [List.cons_append, readDecimal, if_neg hminus, if_pos hdigit, ← List.cons_append,
        hdigits.1, hdigits.2, ← htext, digitsValue_natText]
      have hvalue : (z.natAbs : Int) = z := by omega
      rw [hvalue]

end Pmbah.Js
