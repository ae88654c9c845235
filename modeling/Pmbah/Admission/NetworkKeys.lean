import Mathlib.Data.Nat.Digits.Lemmas
import Pmbah.Admission.ClientAddress

/-!
# Keys of IPv6 networks

An address has many spellings.  Its key is read from the groups of a spelling, where a dotted
tail counts as one group, though it stands for two.
-/

namespace Pmbah.Admission

open Js Library

/-! ## Spellings -/

/-- One to four hexadecimal digits. -/
structure HexGroup (group : JsString) : Prop where
  nonempty : group ≠ []
  length_le : group.length ≤ 4
  digits : ∀ unit ∈ group, (hexValue unit).isSome = true

def groupValue (group : JsString) : Nat := positional 16 (hexDigits group)

/-- An IPv4 address at the end. -/
structure Dotted where
  first : Fin 256
  second : Fin 256
  third : Fin 256
  fourth : Fin 256

def Dotted.text (dotted : Dotted) : JsString :=
  joinWith (js ".") [natText dotted.first, natText dotted.second, natText dotted.third,
    natText dotted.fourth]

def Dotted.values (dotted : Dotted) : List Nat :=
  [dotted.first * 256 + dotted.second, dotted.third * 256 + dotted.fourth]

/-- A text of an IPv6 address. -/
structure Spelling where
  head : List JsString
  /-- The groups after `::`. -/
  compressed : Option (List JsString)
  dotted : Option Dotted
  zone : Option JsString
  hex_head : ∀ group ∈ head, HexGroup group
  hex_compressed : ∀ tail, compressed = some tail → ∀ group ∈ tail, HexGroup group
  length_eq : compressed = none → head.length + 2 * dotted.toList.length = 8
  length_le : ∀ tail, compressed = some tail →
    head.length + tail.length + 2 * dotted.toList.length ≤ 7

namespace Spelling

def dottedTexts (spelling : Spelling) : List JsString := spelling.dotted.toList.map Dotted.text

def dottedValues (spelling : Spelling) : List Nat :=
  spelling.dotted.toList.flatMap Dotted.values

def addressText (spelling : Spelling) : JsString :=
  match spelling.compressed with
  | none => joinWith (js ":") (spelling.head ++ spelling.dottedTexts)
  | some tail => joinWith (js ":") spelling.head ++ js "::" ++
      joinWith (js ":") (tail ++ spelling.dottedTexts)

def text (spelling : Spelling) : JsString :=
  match spelling.zone with
  | none => spelling.addressText
  | some zone => spelling.addressText ++ js "%" ++ zone

/-- The eight groups. -/
def values (spelling : Spelling) : List Nat :=
  match spelling.compressed with
  | none => spelling.head.map groupValue ++ spelling.dottedValues
  | some tail =>
      spelling.head.map groupValue ++
        List.replicate (8 - spelling.head.length - tail.length - spelling.dottedValues.length) 0 ++
        tail.map groupValue ++ spelling.dottedValues

/-- The 128 bits. -/
def address (spelling : Spelling) : Nat := positional (2 ^ 16) spelling.values

/-- The first 64 bits. -/
def network (spelling : Spelling) : Nat := spelling.address / 2 ^ 64

/-- An IPv4 address written as an IPv6 one. -/
def Mapped (spelling : Spelling) : Prop := spelling.address / 2 ^ 32 = 0xFFFF

/-- A dotted tail follows a compression with groups between them, and a group that ends within
the first 64 bits is not zero. -/
def Lagging (spelling : Spelling) : Prop :=
  spelling.dotted.isSome = true ∧ ∃ tail, spelling.compressed = some tail ∧
    ∃ group ∈ tail.take (tail.length - 2), groupValue group ≠ 0

end Spelling

/-! ## Groups and colons -/

/-- A text between colons. -/
structure Part (text : JsString) : Prop where
  nonempty : text ≠ []
  colon : 58 ∉ text
  percent : 37 ∉ text

variable {parts : List JsString} {following : JsString}

theorem mem_joinWith {separator : JsString} {items : List JsString} {unit : UInt16}
    (h : unit ∈ joinWith separator items) : unit ∈ separator ∨ ∃ item ∈ items, unit ∈ item := by
  induction items using joinWith.induct with
  | case1 => exact absurd h List.not_mem_nil
  | case2 item => exact Or.inr ⟨item, List.mem_cons_self, h⟩
  | case3 item next rest ih =>
      rw [joinWith, List.mem_append, List.mem_append] at h
      rcases h with (hitem | hseparator) | hrest
      · exact Or.inr ⟨item, List.mem_cons_self, hitem⟩
      · exact Or.inl hseparator
      · refine (ih hrest).imp_right fun ⟨found, hfound, hmem⟩ => ?_
        exact ⟨found, List.mem_cons_of_mem _ hfound, hmem⟩

theorem map_joinWith (f : UInt16 → UInt16) (separator : JsString) (items : List JsString) :
    (joinWith separator items).map f = joinWith (separator.map f) (items.map (List.map f)) := by
  induction items using joinWith.induct with
  | case1 => rfl
  | case2 item => rfl
  | case3 item next rest ih =>
      rw [joinWith, List.map_append, List.map_append, ih]
      rfl

theorem split_joinWith (hne : parts ≠ []) (h : ∀ part ∈ parts, 58 ∉ part) :
    split (js ":") (joinWith (js ":") parts) = parts := by
  induction parts using joinWith.induct with
  | case1 => exact absurd rfl hne
  | case2 part => exact split_single (free_of_not_mem (h part List.mem_cons_self))
  | case3 part next rest ih =>
      have hfree : Free (js ":") (js ":" ++ joinWith (js ":") (next :: rest)) part :=
        free_of_not_mem (h part List.mem_cons_self)
      have hcolon : js ":" ≠ [] := by decide
      rw [joinWith, split_part hcolon hfree,
        ih (List.cons_ne_nil _ _) fun other hother => h other (List.mem_cons_of_mem _ hother)]

/-- Two colons do not start within groups between single ones. -/
theorem free_joinWith (h : ∀ part ∈ parts, Part part) :
    Free (js "::") following (joinWith (js ":") parts) := by
  induction parts using joinWith.induct with
  | case1 => exact free_nil
  | case2 part => exact free_of_not_mem (h part List.mem_cons_self).colon
  | case3 part next rest ih =>
      have hrest := ih fun other hother => h other (List.mem_cons_of_mem _ hother)
      have hnext := h next (List.mem_cons_of_mem _ List.mem_cons_self)
      rw [joinWith, List.append_assoc]
      refine free_append (free_of_not_mem (h part List.mem_cons_self).colon)
        (free_append ?_ hrest)
      intro skip hskip hstarts
      obtain rfl : skip = 0 := by
        have hlength : skip < 1 := hskip
        omega
      obtain ⟨unit, units, hunits⟩ := List.exists_cons_of_ne_nil hnext.nonempty
      have hjoined : ∃ others, joinWith (js ":") (next :: rest) = unit :: others := by
        cases rest with
        | nil => exact ⟨units, hunits⟩
        | cons third rest => exact ⟨_, by rw [joinWith, hunits]; rfl⟩
      obtain ⟨others, hothers⟩ := hjoined
      rw [hothers] at hstarts
      have hcolon : (58 : UInt16) = unit :=
        (List.cons_prefix_cons.1 (List.cons_prefix_cons.1 hstarts).2).1
      exact hnext.colon (by rw [hunits, hcolon]; exact List.mem_cons_self)

/-- The groups of a text that may be empty. -/
theorem groups_joinWith (h : ∀ part ∈ parts, Part part) :
    (if joinWith (js ":") parts = [] then []
      else split (js ":") (joinWith (js ":") parts)) = parts := by
  cases parts with
  | nil => rfl
  | cons part rest =>
      have hne : joinWith (js ":") (part :: rest) ≠ [] :=
        joinWith_ne_nil (h part List.mem_cons_self).nonempty rest
      rw [if_neg hne]
      exact split_joinWith (List.cons_ne_nil _ _) fun other hother => (h other hother).colon

/-! ## The texts of groups -/

theorem toNat_lowerUnit (unit : UInt16) : (lowerUnit unit).toNat =
    if 65 ≤ unit.toNat ∧ unit.toNat ≤ 90 then unit.toNat + 32 else unit.toNat := by
  rw [lowerUnit]
  split
  · have hsum : (unit + 32).toNat = (unit.toNat + 32) % 2 ^ 16 := UInt16.toNat_add unit 32
    rw [hsum]
    exact Nat.mod_eq_of_lt (by omega)
  · rfl

theorem hexValue_lowerUnit (unit : UInt16) : hexValue (lowerUnit unit) = hexValue unit := by
  rw [hexValue, hexValue, toNat_lowerUnit]
  split_ifs <;> first | (congr 1; omega) | rfl

theorem hexDigits_toLowerCase (group : JsString) :
    hexDigits (toLowerCase group) = hexDigits group := by
  induction group with
  | nil => rfl
  | cons unit rest ih =>
      show hexDigits (lowerUnit unit :: toLowerCase rest) = _
      rw [hexDigits, hexDigits, hexValue_lowerUnit, ih]

theorem HexGroup.lower {group : JsString} (h : HexGroup group) : HexGroup (toLowerCase group) := by
  refine ⟨fun hnil => h.nonempty (List.map_eq_nil_iff.1 hnil), ?_, ?_⟩
  · rw [toLowerCase, List.length_map]
    exact h.length_le
  · intro unit hunit
    obtain ⟨upper, hupper, rfl⟩ := List.mem_map.1 hunit
    rw [hexValue_lowerUnit]
    exact h.digits upper hupper

theorem HexGroup.not_mem {group : JsString} (h : HexGroup group) {unit : UInt16}
    (hunit : hexValue unit = none) : unit ∉ group := by
  intro hmem
  have hdigit := h.digits unit hmem
  rw [hunit] at hdigit
  cases hdigit

theorem HexGroup.part {group : JsString} (h : HexGroup group) : Part group :=
  ⟨h.nonempty, h.not_mem (by decide), h.not_mem (by decide)⟩

/-- All units of a group are digits of its value. -/
theorem hexDigits_spec {group : JsString} (h : ∀ unit ∈ group, (hexValue unit).isSome = true) :
    (hexDigits group).length = group.length ∧ ∀ digit ∈ hexDigits group, digit < 16 := by
  induction group with
  | nil => exact ⟨rfl, fun digit hdigit => absurd hdigit List.not_mem_nil⟩
  | cons unit rest ih =>
      obtain ⟨hlength, hdigits⟩ := ih fun other hother => h other (List.mem_cons_of_mem _ hother)
      obtain ⟨value, hvalue⟩ := Option.isSome_iff_exists.1 (h unit List.mem_cons_self)
      have hlt : value < 16 := by
        rw [hexValue] at hvalue
        split_ifs at hvalue <;> cases hvalue <;> omega
      rw [hexDigits, hvalue]
      refine ⟨congrArg (· + 1) hlength, fun digit hdigit => ?_⟩
      rcases List.mem_cons.1 hdigit with rfl | hdigit
      · exact hlt
      · exact hdigits digit hdigit

theorem groupValue_lt {group : JsString} (h : HexGroup group) : groupValue group < 2 ^ 16 := by
  obtain ⟨hlength, hdigits⟩ := hexDigits_spec h.digits
  have hlt := Positional.lt_pow (by decide : 1 < 16) hdigits
  have hpow : 16 ^ (hexDigits group).length ≤ 16 ^ 4 :=
    Nat.pow_le_pow_right (by decide) (hlength ▸ h.length_le)
  exact hlt.trans_le hpow

theorem parseHex_lower {group : JsString} (h : HexGroup group) :
    parseHex (toLowerCase group) = some (groupValue group) := by
  obtain ⟨hlength, -⟩ := hexDigits_spec h.digits
  rw [parseHex, hexDigits_toLowerCase, groupValue]
  cases hdigits : hexDigits group with
  | nil =>
      rw [hdigits] at hlength
      exact absurd (List.length_eq_zero_iff.1 hlength.symm) h.nonempty
  | cons digit digits => rfl

/-- A dotted tail has digits and dots. -/
theorem mem_dotted {dotted : Dotted} {unit : UInt16} (h : unit ∈ dotted.text) :
    isDigitUnit unit ∨ unit = 46 := by
  rcases mem_joinWith h with hdot | ⟨item, hitem, hunit⟩
  · exact Or.inr (List.mem_singleton.1 hdot)
  · refine Or.inl ?_
    simp only [List.mem_cons, List.not_mem_nil, or_false] at hitem
    rcases hitem with rfl | rfl | rfl | rfl
    · exact isDigitUnit_of_mem_natText hunit
    · exact isDigitUnit_of_mem_natText hunit
    · exact isDigitUnit_of_mem_natText hunit
    · exact isDigitUnit_of_mem_natText hunit

theorem toLowerCase_of_dotted {text : JsString}
    (h : ∀ unit ∈ text, isDigitUnit unit ∨ unit = 46) : toLowerCase text = text := by
  induction text with
  | nil => rfl
  | cons unit rest ih =>
      have hrest := ih fun other hother => h other (List.mem_cons_of_mem _ hother)
      have hunit : lowerUnit unit = unit := by
        rw [lowerUnit, if_neg]
        rintro ⟨hlow, hhigh⟩
        rcases h unit List.mem_cons_self with hdigit | rfl
        · rw [isDigitUnit] at hdigit
          omega
        · revert hlow
          decide
      rw [toLowerCase, List.map_cons, hunit]
      exact congrArg (unit :: ·) hrest

theorem Dotted.part (dotted : Dotted) : Part dotted.text := by
  have hnot : ∀ unit : UInt16, ¬ isDigitUnit unit → unit ≠ 46 → unit ∉ dotted.text :=
    fun unit hdigit hdot hmem => (mem_dotted hmem).elim hdigit hdot
  exact ⟨joinWith_ne_nil (natText_ne_nil _) _, hnot 58 (by decide) (by decide),
    hnot 37 (by decide) (by decide)⟩

namespace Spelling

variable (spelling : Spelling)

/-- The groups before the two colons, in lower case. -/
def lowerHead : List JsString := spelling.head.map toLowerCase

/-- The groups of a part of the spelling and the dotted tail, in lower case. -/
def lowerLast (groups : List JsString) : List JsString :=
  (groups ++ spelling.dottedTexts).map toLowerCase

theorem lowerLast_eq (groups : List JsString) :
    spelling.lowerLast groups = groups.map toLowerCase ++ spelling.dottedTexts := by
  rw [lowerLast, List.map_append]
  congr 1
  rw [dottedTexts, List.map_map]
  apply List.map_congr_left
  intro dotted _
  exact toLowerCase_of_dotted fun unit hunit => mem_dotted hunit

theorem part_lower {groups : List JsString} (h : ∀ group ∈ groups, HexGroup group) :
    ∀ part ∈ groups.map toLowerCase, Part part := by
  intro part hpart
  obtain ⟨group, hgroup, rfl⟩ := List.mem_map.1 hpart
  exact (h group hgroup).lower.part

theorem part_lowerHead : ∀ part ∈ spelling.lowerHead, Part part := part_lower spelling.hex_head

theorem part_lowerLast {groups : List JsString} (h : ∀ group ∈ groups, HexGroup group) :
    ∀ part ∈ spelling.lowerLast groups, Part part := by
  intro part hpart
  rw [lowerLast_eq, List.mem_append] at hpart
  rcases hpart with hgroup | hdotted
  · exact part_lower h part hgroup
  · obtain ⟨dotted, -, rfl⟩ := List.mem_map.1 hdotted
    exact dotted.part

theorem lower_addressText : toLowerCase spelling.addressText =
    match spelling.compressed with
    | none => joinWith (js ":") (spelling.lowerLast spelling.head)
    | some tail => joinWith (js ":") spelling.lowerHead ++ js "::" ++
        joinWith (js ":") (spelling.lowerLast tail) := by
  have hcolon : (js ":").map lowerUnit = js ":" := by decide
  have hcolons : (js "::").map lowerUnit = js "::" := by decide
  rw [addressText, toLowerCase]
  cases spelling.compressed with
  | none => rw [map_joinWith, hcolon]; rfl
  | some tail =>
      rw [List.map_append, List.map_append, map_joinWith, map_joinWith, hcolon, hcolons]
      rfl

/-- What the two colons part. -/
theorem split_lower : split (js "::") (toLowerCase spelling.addressText) =
    match spelling.compressed with
    | none => [joinWith (js ":") (spelling.lowerLast spelling.head)]
    | some tail => [joinWith (js ":") spelling.lowerHead,
        joinWith (js ":") (spelling.lowerLast tail)] := by
  have hcolons : js "::" ≠ [] := by decide
  rw [lower_addressText]
  cases hcompressed : spelling.compressed with
  | none => exact split_single (free_joinWith (spelling.part_lowerLast spelling.hex_head))
  | some tail =>
      simp only
      rw [split_part hcolons (free_joinWith spelling.part_lowerHead),
        split_single (free_joinWith
          (spelling.part_lowerLast (spelling.hex_compressed tail hcompressed)))]

theorem percent_joinWith {groups : List JsString} (h : ∀ group ∈ groups, HexGroup group) :
    37 ∉ joinWith (js ":") (groups ++ spelling.dottedTexts) := by
  intro hmem
  rcases mem_joinWith hmem with hcolon | ⟨part, hpart, hpercent⟩
  · revert hcolon
    decide
  · rcases List.mem_append.1 hpart with hgroup | hdotted
    · exact (h part hgroup).part.percent hpercent
    · obtain ⟨dotted, -, rfl⟩ := List.mem_map.1 hdotted
      exact dotted.part.percent hpercent

theorem percent_addressText : 37 ∉ spelling.addressText := by
  rw [addressText]
  cases hcompressed : spelling.compressed with
  | none => exact spelling.percent_joinWith spelling.hex_head
  | some tail =>
      intro hmem
      rw [List.mem_append, List.mem_append] at hmem
      rcases hmem with (hhead | hcolons) | htail
      · rcases mem_joinWith hhead with hcolon | ⟨part, hpart, hpercent⟩
        · revert hcolon
          decide
        · exact (spelling.hex_head part hpart).part.percent hpercent
      · revert hcolons
        decide
      · exact spelling.percent_joinWith (spelling.hex_compressed tail hcompressed) htail

/-- The zone is cut off. -/
theorem split_zone : (split (js "%") spelling.text).headD [] = spelling.addressText := by
  have hpercent : js "%" ≠ [] := by decide
  have hfree : ∀ following, Free (js "%") following spelling.addressText := fun following =>
    free_of_not_mem spelling.percent_addressText
  rw [text]
  cases spelling.zone with
  | none => rw [split_single (hfree [])]; rfl
  | some zone => rw [split_part hpercent (hfree _)]; rfl

/-! ## The key -/

/-- The four groups that the key is read from: a dotted tail counts as one group. -/
def keyValues : List Nat :=
  match spelling.compressed with
  | none => (spelling.head.map groupValue).take 4
  | some tail =>
      (spelling.head.map groupValue ++
        List.replicate (8 - spelling.head.length - tail.length - spelling.dotted.toList.length) 0 ++
        tail.map groupValue).take 4

/-- The key of four groups. -/
def networkText (values : List Nat) : JsString :=
  joinWith (js ":") (values.map fun value => hexText (some value)) ++ js "::/64"

theorem hexText_lower {groups : List JsString} (h : ∀ group ∈ groups, HexGroup group) :
    (groups.map toLowerCase).map (fun group => hexText (parseHex group)) =
      (groups.map groupValue).map fun value => hexText (some value) := by
  rw [List.map_map, List.map_map]
  apply List.map_congr_left
  intro group hgroup
  show hexText (parseHex (toLowerCase group)) = hexText (some (groupValue group))
  rw [parseHex_lower (h group hgroup)]

theorem length_dottedTexts : spelling.dottedTexts.length = spelling.dotted.toList.length :=
  List.length_map _

theorem length_dotted_le : spelling.dotted.toList.length ≤ 1 := by
  cases spelling.dotted with
  | none => exact Nat.zero_le 1
  | some dotted => exact Nat.le_refl 1

/-- The key is read from the first four groups, of which the dotted tail is none. -/
theorem ipv6Prefix64_text :
    ipv6Prefix64 spelling.text = some (networkText spelling.keyValues) := by
  have hdotted := spelling.length_dotted_le
  have hzero : hexText (parseHex (js "0")) = hexText (some 0) := by decide
  rw [ipv6Prefix64, split_zone, split_lower, keyValues]
  cases hcompressed : spelling.compressed with
  | none =>
      have hlength := spelling.length_eq hcompressed
      have hfour : ((spelling.lowerLast spelling.head).take 4) =
          spelling.lowerHead.take 4 := by
        rw [lowerLast_eq, lowerHead, List.take_append_of_le_length]
        rw [List.length_map]
        omega
      show some (joinWith (js ":") ((List.take 4 (if joinWith (js ":")
        (spelling.lowerLast spelling.head) = [] then [] else split (js ":")
          (joinWith (js ":") (spelling.lowerLast spelling.head)))).map
            fun group => hexText (parseHex group)) ++ js "::/64") = _
      rw [groups_joinWith (spelling.part_lowerLast spelling.hex_head), hfour, networkText,
        lowerHead, List.map_take, List.map_take, hexText_lower spelling.hex_head]
  | some tail =>
      have hlength := spelling.length_le tail hcompressed
      have htail := spelling.hex_compressed tail hcompressed
      show (expandedGroups (if joinWith (js ":") spelling.lowerHead = [] then []
          else split (js ":") (joinWith (js ":") spelling.lowerHead))
        (if joinWith (js ":") (spelling.lowerLast tail) = [] then []
          else split (js ":") (joinWith (js ":") (spelling.lowerLast tail)))).bind
        (fun groups => some (joinWith (js ":") ((groups.take 4).map
          fun group => hexText (parseHex group)) ++ js "::/64")) = _
      have hhead : spelling.lowerHead.length = spelling.head.length := List.length_map _
      have hlast : (spelling.lowerLast tail).length =
          tail.length + spelling.dotted.toList.length := by
        rw [lowerLast_eq, List.length_append, List.length_map, length_dottedTexts]
      have hfits : ¬ 8 < spelling.lowerHead.length + (spelling.lowerLast tail).length := by omega
      rw [groups_joinWith spelling.part_lowerHead, groups_joinWith (spelling.part_lowerLast htail),
        expandedGroups, if_neg hfits, Option.bind_some, networkText, hhead, hlast, lowerLast_eq,
        ← List.append_assoc, List.take_append_of_le_length, List.map_take, List.map_take,
        Nat.sub_sub _ tail.length]
      · rw [List.map_append, List.map_append, List.map_append, List.map_append, lowerHead,
          hexText_lower spelling.hex_head, hexText_lower htail, List.map_replicate,
          List.map_replicate, hzero]
      · simp only [List.length_append, List.length_replicate, List.length_map, hhead]
        omega

end Spelling

end Pmbah.Admission
