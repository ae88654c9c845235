import Pmbah.Admission.NetworkKeys

/-!
# Addresses of one network

Two addresses get the same key exactly if their first 64 bits are equal, unless a spelling of
one of them lags behind its address.
-/

namespace Pmbah.Admission

open Js Library

/-! ## The key tells groups apart -/

theorem hexUnit_injOn {a b : Nat} (ha : a < 16) (hb : b < 16) (h : hexUnit a = hexUnit b) :
    a = b := by
  have hnat := congrArg UInt16.toNat h
  rw [hexUnit, hexUnit, UInt16.toNat_ofNat', UInt16.toNat_ofNat'] at hnat
  split_ifs at hnat <;> omega

theorem colon_ne_hexUnit {digit : Nat} (h : digit < 16) : (58 : UInt16) ≠ hexUnit digit := by
  intro heq
  have hnat := congrArg UInt16.toNat heq
  rw [hexUnit, UInt16.toNat_ofNat'] at hnat
  split_ifs at hnat <;> · simp at hnat; omega

theorem colon_not_mem_hexText (value : Nat) : 58 ∉ hexText (some value) := by
  rw [hexText]
  split
  · decide
  · intro hmem
    obtain ⟨digit, hdigit, heq⟩ := List.mem_map.1 hmem
    have hlt : digit < 16 := Nat.digits_lt_base (by decide) (List.mem_reverse.1 hdigit)
    exact colon_ne_hexUnit hlt heq.symm

theorem digits_injective {digits others : List Nat} (hdigits : ∀ digit ∈ digits, digit < 16)
    (hothers : ∀ digit ∈ others, digit < 16)
    (h : digits.reverse.map hexUnit = others.reverse.map hexUnit) : digits = others := by
  apply List.reverse_injective
  apply map_injOn _ h
  intro a ha b hb
  exact hexUnit_injOn (hdigits a (List.mem_reverse.1 ha)) (hothers b (List.mem_reverse.1 hb))

theorem digits_lt (value : Nat) : ∀ digit ∈ Nat.digits 16 value, digit < 16 :=
  fun _ hdigit => Nat.digits_lt_base (by decide) hdigit

/-- Only zero is written `0`. -/
theorem eq_zero_of_text {value : Nat}
    (h : (Nat.digits 16 value).reverse.map hexUnit = js "0") : value = 0 := by
  have hdigits : Nat.digits 16 value = [0] :=
    digits_injective (digits_lt value) (by decide) (h.trans (by decide))
  rw [← Nat.ofDigits_digits 16 value, hdigits]
  rfl

theorem hexText_injective {a b : Nat} (h : hexText (some a) = hexText (some b)) : a = b := by
  rw [hexText, hexText] at h
  by_cases ha : a = 0
  · by_cases hb : b = 0
    · rw [ha, hb]
    · rw [if_pos ha, if_neg hb] at h
      exact absurd (eq_zero_of_text h.symm) hb
  · by_cases hb : b = 0
    · rw [if_neg ha, if_pos hb] at h
      exact absurd (eq_zero_of_text h) ha
    · rw [if_neg ha, if_neg hb] at h
      exact Nat.digits_inj_iff.1 (digits_injective (digits_lt a) (digits_lt b) h)

theorem networkText_injective {values others : List Nat} (hvalues : values ≠ [])
    (hothers : others ≠ []) (h : Spelling.networkText values = Spelling.networkText others) :
    values = others := by
  have hjoined := List.append_cancel_right h
  have hcolon : ∀ list : List Nat,
      ∀ part ∈ list.map fun value => hexText (some value), 58 ∉ part := by
    intro list part hpart
    obtain ⟨value, -, rfl⟩ := List.mem_map.1 hpart
    exact colon_not_mem_hexText value
  have hsplit := congrArg (split (js ":")) hjoined
  rw [split_joinWith (fun hnil => hvalues (List.map_eq_nil_iff.1 hnil)) (hcolon values),
    split_joinWith (fun hnil => hothers (List.map_eq_nil_iff.1 hnil)) (hcolon others)] at hsplit
  exact map_injOn (fun a _ b _ => hexText_injective) hsplit

/-! ## The groups of an address -/

namespace Spelling

variable (spelling : Spelling)

theorem length_dottedValues :
    spelling.dottedValues.length = 2 * spelling.dotted.toList.length := by
  rw [dottedValues]
  cases spelling.dotted with
  | none => rfl
  | some dotted => rfl

theorem length_values : spelling.values.length = 8 := by
  have hdotted := spelling.length_dottedValues
  rw [values]
  cases hcompressed : spelling.compressed with
  | none =>
      have hlength := spelling.length_eq hcompressed
      rw [List.length_append, List.length_map, hdotted]
      exact hlength
  | some tail =>
      have hlength := spelling.length_le tail hcompressed
      simp only [List.length_append, List.length_map, List.length_replicate]
      omega

theorem value_lt_of_mem_map {groups : List JsString} (h : ∀ group ∈ groups, HexGroup group) :
    ∀ value ∈ groups.map groupValue, value < 2 ^ 16 := by
  intro value hvalue
  obtain ⟨group, hgroup, rfl⟩ := List.mem_map.1 hvalue
  exact groupValue_lt (h group hgroup)

theorem value_lt : ∀ value ∈ spelling.values, value < 2 ^ 16 := by
  have hdotted : ∀ value ∈ spelling.dottedValues, value < 2 ^ 16 := by
    intro value hvalue
    obtain ⟨dotted, -, hmem⟩ := List.mem_flatMap.1 hvalue
    have hfirst := dotted.first.isLt
    have hsecond := dotted.second.isLt
    have hthird := dotted.third.isLt
    have hfourth := dotted.fourth.isLt
    rw [Dotted.values, List.mem_cons, List.mem_singleton] at hmem
    omega
  intro value hvalue
  rw [values] at hvalue
  cases hcompressed : spelling.compressed with
  | none =>
      rw [hcompressed] at hvalue
      rcases List.mem_append.1 hvalue with hhead | hlast
      · exact value_lt_of_mem_map spelling.hex_head value hhead
      · exact hdotted value hlast
  | some tail =>
      rw [hcompressed] at hvalue
      simp only [List.mem_append, List.mem_replicate] at hvalue
      rcases hvalue with ((hhead | ⟨-, rfl⟩) | htail) | hlast
      · exact value_lt_of_mem_map spelling.hex_head value hhead
      · decide
      · exact value_lt_of_mem_map (spelling.hex_compressed tail hcompressed) value htail
      · exact hdotted value hlast

/-- The first 64 bits are the first four groups. -/
theorem network_eq : spelling.network = positional (2 ^ 16) (spelling.values.take 4) := by
  have hlast : positional (2 ^ 16) (spelling.values.drop 4) < 2 ^ 64 := by
    have hlt := Positional.lt_pow (by decide : 1 < 2 ^ 16)
      (fun value hvalue => spelling.value_lt value (List.mem_of_mem_drop hvalue) :
        ∀ value ∈ spelling.values.drop 4, value < 2 ^ 16)
    rw [List.length_drop, length_values, ← Nat.pow_mul] at hlt
    exact hlt
  have hsplit : positional (2 ^ 16) spelling.values =
      positional (2 ^ 16) (spelling.values.take 4) * 2 ^ 64 +
        positional (2 ^ 16) (spelling.values.drop 4) := by
    have happend : positional (2 ^ 16) (spelling.values.take 4 ++ spelling.values.drop 4) =
        positional (2 ^ 16) (spelling.values.take 4) *
          (2 ^ 16) ^ (spelling.values.drop 4).length +
          positional (2 ^ 16) (spelling.values.drop 4) := Positional.append _ _
    rw [List.take_append_drop, List.length_drop, length_values, ← Nat.pow_mul] at happend
    exact happend
  rw [network, address, hsplit]
  omega

theorem network_inj {spelling other : Spelling} :
    spelling.network = other.network ↔ spelling.values.take 4 = other.values.take 4 := by
  rw [network_eq, network_eq]
  constructor
  · intro h
    apply Positional.injective (by decide : 1 < 2 ^ 16) _ _ _ h
    · rw [List.length_take, List.length_take, length_values, length_values]
    · exact fun value hvalue => spelling.value_lt value (List.mem_of_mem_take hvalue)
    · exact fun value hvalue => other.value_lt value (List.mem_of_mem_take hvalue)
  · intro h
    rw [h]

theorem length_keyValues : spelling.keyValues.length = 4 := by
  have hdotted := spelling.length_dotted_le
  rw [keyValues]
  cases hcompressed : spelling.compressed with
  | none =>
      have hlength := spelling.length_eq hcompressed
      rw [List.length_take, List.length_map]
      omega
  | some tail =>
      have hlength := spelling.length_le tail hcompressed
      simp only [List.length_take, List.length_append, List.length_map, List.length_replicate]
      omega

end Spelling

/-! ## Lagging -/

/-- A list is its own shift where it repeats one value. -/
theorem take_cons_eq_iff (first : Nat) (reach : Nat) (rest : List Nat)
    (hreach : reach ≤ rest.length) :
    (first :: rest).take reach = rest.take reach ↔ ∀ value ∈ rest.take reach, value = first := by
  induction reach generalizing rest with
  | zero => simp
  | succ reach ih =>
      cases rest with
      | nil => exact absurd hreach (Nat.not_succ_le_zero reach)
      | cons next rest =>
          have hrest := ih rest (Nat.le_of_succ_le_succ hreach)
          rw [List.take_succ_cons, List.take_succ_cons, List.cons.injEq, List.forall_mem_cons]
          constructor
          · rintro ⟨rfl, htake⟩
            exact ⟨rfl, hrest.1 htake⟩
          · rintro ⟨rfl, htake⟩
            exact ⟨rfl, hrest.2 htake⟩

/-- Counting a run of zeros one too long shows where something else follows within reach. -/
theorem take_zeros_eq_iff (zeros reach : Nat) (rest : List Nat) (hreach : reach ≤ rest.length) :
    (List.replicate (zeros + 1) 0 ++ rest).take (zeros + reach) =
        (List.replicate zeros 0 ++ rest).take (zeros + reach) ↔
      ∀ value ∈ rest.take reach, value = 0 := by
  have hshift : List.replicate (zeros + 1) 0 ++ rest = List.replicate zeros 0 ++ 0 :: rest := by
    rw [List.replicate_succ', List.append_assoc]
    rfl
  have htake : ∀ list : List Nat, (List.replicate zeros 0 ++ list).take (zeros + reach) =
      List.replicate zeros 0 ++ list.take reach := by
    intro list
    rw [List.take_append, List.length_replicate, Nat.add_sub_cancel_left,
      List.take_of_length_le (by rw [List.length_replicate]; omega)]
  rw [hshift, htake, htake, List.append_cancel_left_eq]
  exact take_cons_eq_iff 0 reach rest hreach

namespace Spelling

variable {spelling other : Spelling}

/-- Within the first four groups a dotted tail matters where it follows three groups. -/
theorem keyValues_eq_iff_of_dotted {dotted : Dotted} {tail : List JsString}
    (hdotted : spelling.dotted = some dotted) (hcompressed : spelling.compressed = some tail) :
    spelling.keyValues = spelling.values.take 4 ↔
      ∀ group ∈ tail.take (tail.length - 2), groupValue group = 0 := by
  have hlength := spelling.length_le tail hcompressed
  have hvalues := spelling.length_dottedValues
  have hfits : spelling.head.length + tail.length ≤ 5 := by
    rw [hdotted] at hlength
    have hone : (some dotted).toList.length = 1 := rfl
    omega
  have hone : spelling.dotted.toList.length = 1 := by rw [hdotted]; rfl
  obtain ⟨zeros, hzeros⟩ : ∃ zeros, zeros + spelling.head.length + tail.length = 6 :=
    ⟨6 - spelling.head.length - tail.length, by omega⟩
  have hkey : 8 - spelling.head.length - tail.length - spelling.dotted.toList.length =
      zeros + 1 := by omega
  have htrue : 8 - spelling.head.length - tail.length - spelling.dottedValues.length =
      zeros := by omega
  have hfour : 4 ≤ (spelling.head.map groupValue ++ List.replicate zeros 0 ++
      tail.map groupValue).length := by
    simp only [List.length_append, List.length_map, List.length_replicate]
    omega
  have hhead : ∀ rest : List Nat, (spelling.head.map groupValue ++ rest).take 4 =
      (spelling.head.map groupValue).take 4 ++ rest.take (4 - spelling.head.length) := by
    intro rest
    rw [List.take_append, List.length_map]
  rw [keyValues, values, hcompressed]
  simp only
  rw [hkey, htrue, List.take_append_of_le_length hfour, List.append_assoc, List.append_assoc,
    hhead, hhead, List.append_cancel_left_eq]
  by_cases hreach : tail.length ≤ 2
  · have hnone : tail.length - 2 = 0 := by omega
    have hzero : ∀ count, 4 - spelling.head.length ≤ count →
        (List.replicate count 0 ++ tail.map groupValue).take (4 - spelling.head.length) =
          List.replicate (4 - spelling.head.length) 0 := by
      intro count hcount
      rw [List.take_append_of_le_length (by rw [List.length_replicate]; exact hcount),
        List.take_replicate, Nat.min_eq_left hcount]
    rw [hzero _ (by omega), hzero _ (by omega), hnone, List.take_zero]
    exact ⟨fun _ group hgroup => absurd hgroup List.not_mem_nil, fun _ => rfl⟩
  · have hfirst : 4 - spelling.head.length = zeros + (tail.length - 2) := by omega
    rw [hfirst, take_zeros_eq_iff _ _ _ (by rw [List.length_map]; omega), ← List.map_take]
    constructor
    · exact fun h group hgroup => h _ (List.mem_map_of_mem hgroup)
    · intro h value hvalue
      obtain ⟨group, hgroup, rfl⟩ := List.mem_map.1 hvalue
      exact h group hgroup

/-- The key is read from the groups of the network, unless the spelling lags. -/
theorem keyValues_eq_iff : spelling.keyValues = spelling.values.take 4 ↔ ¬ spelling.Lagging := by
  have hvalues := spelling.length_dottedValues
  cases hcompressed : spelling.compressed with
  | none =>
      have hlength := spelling.length_eq hcompressed
      have hdotted := spelling.length_dotted_le
      have hsame : spelling.keyValues = spelling.values.take 4 := by
        rw [keyValues, values, hcompressed]
        simp only
        rw [List.take_append_of_le_length]
        rw [List.length_map]
        omega
      refine ⟨fun _ hlagging => ?_, fun _ => hsame⟩
      obtain ⟨-, tail, htail, -⟩ := hlagging
      rw [hcompressed] at htail
      cases htail
  | some tail =>
      cases hdotted : spelling.dotted with
      | none =>
          have hsame : spelling.keyValues = spelling.values.take 4 := by
            rw [keyValues, values, dottedValues, hcompressed, hdotted]
            simp
          refine ⟨fun _ hlagging => ?_, fun _ => hsame⟩
          rw [Lagging, hdotted] at hlagging
          cases hlagging.1
      | some dotted =>
          rw [keyValues_eq_iff_of_dotted hdotted hcompressed]
          constructor
          · rintro hzero ⟨-, other, hother, group, hgroup, hne⟩
            rw [hcompressed] at hother
            cases hother
            exact hne (hzero group hgroup)
          · intro hnot group hgroup
            by_contra hne
            exact hnot ⟨by rw [hdotted]; rfl, tail, hcompressed, group, hgroup, hne⟩

end Spelling

/-! ## Mapped addresses -/

theorem isDottedDigits_spec {quad : JsString} (h : isDottedDigits quad = true) :
    46 ∈ quad ∧ ∀ unit ∈ quad, isDigitUnit unit ∨ unit = 46 := by
  rw [isDottedDigits] at h
  simp only [Bool.and_eq_true, decide_eq_true_eq, List.all_eq_true] at h
  obtain ⟨hlength, hdigits⟩ := h
  constructor
  · by_contra hdot
    have hsingle : split (js ".") quad = [quad] := split_single (free_of_not_mem hdot)
    rw [hsingle] at hlength
    exact absurd hlength (by simp)
  · intro unit hunit
    have hdot : js "." ≠ [] := by decide
    rcases mem_split hdot hunit with hseparator | ⟨part, hpart, hmem⟩
    · exact Or.inr (List.mem_singleton.1 hseparator)
    · exact Or.inl ((hdigits part hpart).2 unit hmem)

namespace Spelling

variable {spelling : Spelling}

theorem text_ne_nil (spelling : Spelling) : spelling.text ≠ [] := by
  have hcolons : js "::" ≠ [] := by decide
  have haddress : spelling.addressText ≠ [] := by
    rw [addressText]
    cases hcompressed : spelling.compressed with
    | none =>
        have hlength := spelling.length_eq hcompressed
        have hdotted := spelling.length_dotted_le
        cases hhead : spelling.head with
        | nil =>
            rw [hhead, List.length_nil] at hlength
            omega
        | cons group rest =>
            have hgroup := spelling.hex_head group (by rw [hhead]; exact List.mem_cons_self)
            exact joinWith_ne_nil hgroup.nonempty _
    | some tail =>
        exact List.append_ne_nil_of_left_ne_nil (List.append_ne_nil_of_right_ne_nil _ hcolons) _
  rw [text]
  cases spelling.zone with
  | none => exact haddress
  | some zone =>
      exact List.append_ne_nil_of_left_ne_nil (List.append_ne_nil_of_left_ne_nil haddress _) _

/-- A text of `::ffff:` and a dotted address. -/
structure MappedText (text quad : JsString) : Prop where
  lower : toLowerCase text = js "::" ++ joinWith (js ":") [js "ffff", quad]
  dot : 46 ∈ quad
  digits : ∀ unit ∈ quad, isDigitUnit unit ∨ unit = 46

theorem MappedText.part {text quad : JsString} (h : MappedText text quad) :
    ∀ part ∈ [js "ffff", quad], Part part := by
  have hquad : Part quad := by
    refine ⟨List.ne_nil_of_mem h.dot, fun hcolon => ?_, fun hpercent => ?_⟩
    · exact (h.digits 58 hcolon).elim (by decide) (by decide)
    · exact (h.digits 37 hpercent).elim (by decide) (by decide)
  have hffff : Part (js "ffff") := ⟨by decide, by decide, by decide⟩
  intro part hpart
  rcases List.mem_cons.1 hpart with rfl | hpart
  · exact hffff
  · rw [List.mem_singleton.1 hpart]
    exact hquad

/-- There is no zone after digits and dots. -/
theorem MappedText.zone {quad : JsString} (h : MappedText spelling.text quad) :
    spelling.text = spelling.addressText := by
  have hpercent : 37 ∉ spelling.text := by
    intro hmem
    have hlower : (37 : UInt16) ∈ toLowerCase spelling.text :=
      List.mem_map.2 ⟨37, hmem, by decide⟩
    rw [h.lower] at hlower
    rcases List.mem_append.1 hlower with hcolons | hjoined
    · exact absurd hcolons (by decide)
    · rcases mem_joinWith hjoined with hcolon | ⟨part, hpart, hmem⟩
      · exact absurd hcolon (by decide)
      · exact (h.part part hpart).percent hmem
  rw [text] at hpercent ⊢
  cases hzone : spelling.zone with
  | none => rfl
  | some zone =>
      rw [hzone] at hpercent
      exfalso
      apply hpercent
      rw [List.mem_append, List.mem_append]
      exact Or.inl (Or.inr (by decide))

/-- Such a text spells a mapped address. -/
theorem MappedText.mapped {quad : JsString} (h : MappedText spelling.text quad) :
    spelling.Mapped := by
  have hcolons : js "::" ≠ [] := by decide
  have hsplit := spelling.split_lower
  rw [← h.zone, h.lower, split_separator_append hcolons,
    split_single (free_joinWith h.part)] at hsplit
  cases hcompressed : spelling.compressed with
  | none =>
      rw [hcompressed] at hsplit
      exact absurd (congrArg List.length hsplit) (by simp)
  | some tail =>
      rw [hcompressed] at hsplit
      simp only [List.cons.injEq, and_true] at hsplit
      obtain ⟨hnil, hlast⟩ := hsplit
      have hhead : spelling.head = [] := by
        have hgroups := groups_joinWith spelling.part_lowerHead
        rw [if_pos hnil.symm] at hgroups
        exact List.map_eq_nil_iff.1 hgroups.symm
      have htail := spelling.hex_compressed tail hcompressed
      have hgroups : spelling.lowerLast tail = [js "ffff", quad] := by
        rw [← groups_joinWith (spelling.part_lowerLast htail), ← hlast, groups_joinWith h.part]
      rw [lowerLast_eq, dottedTexts] at hgroups
      cases hdotted : spelling.dotted with
      | none =>
          rw [hdotted] at hgroups
          simp only [Option.toList_none, List.map_nil, List.append_nil] at hgroups
          have hquad : quad ∈ tail.map toLowerCase := by rw [hgroups]; simp
          obtain ⟨group, hgroup, rfl⟩ := List.mem_map.1 hquad
          exact absurd h.dot ((htail group hgroup).lower.not_mem (by decide))
      | some dotted =>
          rw [hdotted] at hgroups
          have hboth : tail.map toLowerCase ++ [dotted.text] = [js "ffff"] ++ [quad] := hgroups
          have hone : tail.map toLowerCase = [js "ffff"] := (List.append_inj' hboth rfl).1
          obtain ⟨group, rfl, hffff⟩ := List.map_eq_singleton_iff.1 hone
          have hvalue : groupValue group = 0xFFFF := by
            have hparse := parseHex_lower (htail group List.mem_cons_self)
            rw [hffff] at hparse
            exact Option.some.inj (hparse.symm.trans (by decide))
          have hfirst := dotted.first.isLt
          have hsecond := dotted.second.isLt
          have hthird := dotted.third.isLt
          have hfourth := dotted.fourth.isLt
          have hvalues : spelling.values = [0, 0, 0, 0, 0, 0xFFFF] ++ dotted.values := by
            rw [values, dottedValues, hcompressed, hdotted, hhead]
            simp only [List.map_cons, hvalue]
            rfl
          rw [Mapped, address, hvalues, positional, Dotted.values]
          simp only [List.cons_append, List.nil_append, List.foldl_cons, List.foldl_nil]
          omega

theorem withoutMapped_text (h : ¬ spelling.Mapped) :
    withoutMapped spelling.text = spelling.text := by
  rw [withoutMapped]
  split
  · rename_i hmatch
    rw [Bool.and_eq_true, decide_eq_true_eq] at hmatch
    obtain ⟨hfront, hdotted⟩ := hmatch
    obtain ⟨hdot, hdigits⟩ := isDottedDigits_spec hdotted
    have hlower : toLowerCase spelling.text =
        js "::" ++ joinWith (js ":") [js "ffff", spelling.text.drop 7] := by
      calc toLowerCase spelling.text
          = toLowerCase (spelling.text.take 7) ++ toLowerCase (spelling.text.drop 7) := by
            rw [toLowerCase, toLowerCase, toLowerCase, ← List.map_append, List.take_append_drop]
        _ = js "::ffff:" ++ spelling.text.drop 7 := by
            rw [hfront, toLowerCase_of_dotted hdigits]
        _ = js "::" ++ joinWith (js ":") [js "ffff", spelling.text.drop 7] := rfl
    have hmapped : MappedText spelling.text (spelling.text.drop 7) := ⟨hlower, hdot, hdigits⟩
    exact absurd hmapped.mapped h
  · rfl

end Spelling

/-! ## Keys and networks -/

theorem hexValue_hexUnit {digit : Nat} (h : digit < 16) : hexValue (hexUnit digit) = some digit := by
  rw [hexValue, hexUnit, UInt16.toNat_ofNat']
  split_ifs <;> first | omega | (congr 1; omega)

theorem hexDigits_map_hexUnit {digits : List Nat} (h : ∀ digit ∈ digits, digit < 16) :
    hexDigits (digits.map hexUnit) = digits := by
  induction digits with
  | nil => rfl
  | cons digit digits ih =>
      rw [List.map_cons, hexDigits, hexValue_hexUnit (h digit List.mem_cons_self)]
      exact congrArg (digit :: ·) (ih fun other hother => h other (List.mem_cons_of_mem _ hother))

/-- The text of a group is a group of its value. -/
theorem hexText_group {value : Nat} (h : value < 2 ^ 16) :
    HexGroup (hexText (some value)) ∧ groupValue (hexText (some value)) = value := by
  rw [hexText]
  split
  · rename_i hzero
    rw [hzero]
    exact ⟨⟨by decide, by decide, by decide⟩, by decide⟩
  · rename_i hzero
    have hdigits : ∀ digit ∈ (Nat.digits 16 value).reverse, digit < 16 :=
      fun digit hdigit => digits_lt value digit (List.mem_reverse.1 hdigit)
    refine ⟨⟨?_, ?_, ?_⟩, ?_⟩
    · intro hnil
      have hempty := List.reverse_eq_nil_iff.1 (List.map_eq_nil_iff.1 hnil)
      exact hzero (Nat.digits_eq_nil_iff_eq_zero.1 hempty)
    · rw [List.length_map, List.length_reverse, Nat.digits_length_le_iff (by decide)]
      exact h
    · intro unit hunit
      obtain ⟨digit, hdigit, rfl⟩ := List.mem_map.1 hunit
      rw [hexValue_hexUnit (hdigits digit hdigit)]
      rfl
    · have hvalue : positional 16 (List.replicate 0 0 ++ (Nat.digits 16 value).reverse) = value :=
        Positional.digits 0 value
      rw [groupValue, hexDigits_map_hexUnit hdigits]
      exact hvalue

namespace Spelling

/-- The address written out in eight groups. -/
def plain (spelling : Spelling) : Spelling where
  head := spelling.values.map fun value => hexText (some value)
  compressed := none
  dotted := none
  zone := none
  hex_head := by
    intro group hgroup
    obtain ⟨value, hvalue, rfl⟩ := List.mem_map.1 hgroup
    exact (hexText_group (spelling.value_lt value hvalue)).1
  hex_compressed := by
    intro tail htail
    cases htail
  length_eq := by
    intro _
    rw [List.length_map, length_values]
    rfl
  length_le := by
    intro tail htail
    cases htail

theorem values_plain (spelling : Spelling) : spelling.plain.values = spelling.values := by
  have hgroups : spelling.plain.values =
      (spelling.values.map fun value => hexText (some value)).map groupValue :=
    List.append_nil _
  rw [hgroups, List.map_map]
  calc spelling.values.map (groupValue ∘ fun value => hexText (some value))
      = spelling.values.map id := by
        apply List.map_congr_left
        intro value hvalue
        exact (hexText_group (spelling.value_lt value hvalue)).2
    _ = spelling.values := List.map_id _

theorem not_lagging_plain (spelling : Spelling) : ¬ spelling.plain.Lagging := by
  rintro ⟨hdotted, -⟩
  cases hdotted

end Spelling

/-- A request from an address that is not mapped. -/
structure FromIpv6 (isIP : JsString → Nat) (request : ClientRequest)
    (trustedHeader : Option JsString) (spelling : Spelling) : Prop where
  candidate : candidateAddress isIP request trustedHeader = some spelling.text
  accepted : isIP spelling.text = 6
  unmapped : ¬ spelling.Mapped

theorem clientAddress_text {isIP : JsString → Nat} {request : ClientRequest}
    {trustedHeader : Option JsString} {spelling : Spelling}
    (h : FromIpv6 isIP request trustedHeader spelling) :
    clientAddress isIP request trustedHeader =
      some (Spelling.networkText spelling.keyValues) := by
  rw [clientAddress, h.candidate]
  cases htext : spelling.text with
  | nil => exact absurd htext spelling.text_ne_nil
  | cons unit rest =>
      simp only
      rw [← htext, Spelling.withoutMapped_text h.unmapped, if_pos h.accepted,
        spelling.ipv6Prefix64_text]

theorem clientAddress_eq_iff {isIP : JsString → Nat} {request other : ClientRequest}
    {header otherHeader : Option JsString} {a b : Spelling}
    (ha : FromIpv6 isIP request header a) (hb : FromIpv6 isIP other otherHeader b) :
    clientAddress isIP request header = clientAddress isIP other otherHeader ↔
      a.keyValues = b.keyValues := by
  have hne : ∀ spelling : Spelling, spelling.keyValues ≠ [] := by
    intro spelling hnil
    have hlength := spelling.length_keyValues
    rw [hnil] at hlength
    cases hlength
  rw [clientAddress_text ha, clientAddress_text hb, Option.some.injEq]
  constructor
  · exact networkText_injective (hne a) (hne b)
  · intro h
    rw [h]

/-- Clients of two addresses have one key exactly if they are of one network. -/
def KeyedByNetwork (isIP : JsString → Nat) (a b : Spelling) : Prop :=
  ∀ request other header otherHeader, FromIpv6 isIP request header a →
    FromIpv6 isIP other otherHeader b →
      (clientAddress isIP request header = clientAddress isIP other otherHeader ↔
        a.network = b.network)

def socketRequest (address : JsString) : ClientRequest := ⟨fun _ => none, some address⟩

/-- An address is told apart by its network from every address whose spelling does not lag
exactly if its own does not. -/
theorem keyedByNetwork_iff (isIP : JsString → Nat)
    (hisIP : ∀ spelling : Spelling, spelling.zone = none → isIP spelling.text = 6)
    (a : Spelling) (haccepted : isIP a.text = 6) (hmapped : ¬ a.Mapped) :
    (∀ b : Spelling, ¬ b.Lagging → KeyedByNetwork isIP a b) ↔ ¬ a.Lagging := by
  constructor
  · intro hkeyed
    have haddress : a.plain.address = a.address := by
      rw [Spelling.address, Spelling.address, a.values_plain]
    have hplain : ¬ a.plain.Mapped := by
      rw [Spelling.Mapped, haddress]
      exact hmapped
    have ha : FromIpv6 isIP (socketRequest a.text) none a := ⟨rfl, haccepted, hmapped⟩
    have hb : FromIpv6 isIP (socketRequest a.plain.text) none a.plain :=
      ⟨rfl, hisIP a.plain rfl, hplain⟩
    have hsame : a.network = a.plain.network := by
      rw [Spelling.network, Spelling.network, haddress]
    have hkeys := (clientAddress_eq_iff ha hb).1
      ((hkeyed a.plain a.not_lagging_plain _ _ _ _ ha hb).2 hsame)
    rw [← Spelling.keyValues_eq_iff, hkeys,
      Spelling.keyValues_eq_iff.2 a.not_lagging_plain, a.values_plain]
  · intro hlagging b hb request other header otherHeader hrequest hother
    rw [clientAddress_eq_iff hrequest hother, Spelling.keyValues_eq_iff.2 hlagging,
      Spelling.keyValues_eq_iff.2 hb, Spelling.network_inj]

instance (group : JsString) : Decidable (HexGroup group) :=
  decidable_of_iff (group ≠ [] ∧ group.length ≤ 4 ∧
      ∀ unit ∈ group, (hexValue unit).isSome = true)
    ⟨fun h => ⟨h.1, h.2.1, h.2.2⟩, fun h => ⟨h.nonempty, h.length_le, h.digits⟩⟩

/-- A spelling with `::` between two lists of groups. -/
def shortened (head tail : List JsString) (dotted : Option Dotted) (zone : Option JsString)
    (hgroups : ∀ group ∈ head ++ tail, HexGroup group)
    (hlength : head.length + tail.length + 2 * dotted.toList.length ≤ 7) : Spelling where
  head := head
  compressed := some tail
  dotted := dotted
  zone := zone
  hex_head := fun group hgroup => hgroups group (List.mem_append_left _ hgroup)
  hex_compressed := by
    intro other hother
    cases hother
    exact fun group hgroup => hgroups group (List.mem_append_right _ hgroup)
  length_eq := by
    intro hnone
    cases hnone
  length_le := by
    intro other hother
    cases hother
    exact hlength

/-- `2001:DB8::1.2.3.4%eth0` and `2001:db8:0:0:9::` are of one network. -/
theorem keyedByNetwork_respelled :
    clientAddress (fun _ => 6) (socketRequest (js "2001:DB8::1.2.3.4%eth0")) none =
      clientAddress (fun _ => 6) (socketRequest (js "2001:db8:0:0:9::")) none := by
  let a := shortened [js "2001", js "DB8"] [] (some ⟨1, 2, 3, 4⟩) (some (js "eth0")) (by decide)
    (by decide)
  let b := shortened [js "2001", js "db8", js "0", js "0", js "9"] [] none none (by decide)
    (by decide)
  have ha : ¬ a.Mapped := by
    have haddress : a.address / 2 ^ 32 ≠ 0xFFFF := by decide +kernel
    exact haddress
  have hb : ¬ b.Mapped := by
    have haddress : b.address / 2 ^ 32 ≠ 0xFFFF := by decide +kernel
    exact haddress
  have hfirst : ¬ a.Lagging := by
    rintro ⟨-, tail, htail, group, hgroup, -⟩
    cases htail
    exact absurd hgroup List.not_mem_nil
  have hsecond : ¬ b.Lagging := by
    rintro ⟨hdotted, -⟩
    cases hdotted
  have hnetwork : a.network = b.network := by decide +kernel
  have hkeyed := (keyedByNetwork_iff (fun _ => 6) (fun _ _ => rfl) a rfl ha).2 hfirst b hsecond
  have hatext : js "2001:DB8::1.2.3.4%eth0" = a.text := by decide +kernel
  have hbtext : js "2001:db8:0:0:9::" = b.text := by decide +kernel
  rw [hatext, hbtext]
  exact (hkeyed _ _ none none ⟨rfl, rfl, ha⟩ ⟨rfl, rfl, hb⟩).2 hnetwork

/-- `::1:2:3:1.2.3.4` is of the network of `0:0:0:1:2:3:102:304`, and gets another key. -/
theorem not_keyedByNetwork_dotted : ∃ a b : Spelling,
    a.text = js "::1:2:3:1.2.3.4" ∧ b.text = js "0:0:0:1:2:3:102:304" ∧
      ¬ a.Mapped ∧ ¬ b.Mapped ∧ ∀ isIP : JsString → Nat, isIP a.text = 6 → isIP b.text = 6 →
        ¬ KeyedByNetwork isIP a b := by
  let a := shortened [] [js "1", js "2", js "3"] (some ⟨1, 2, 3, 4⟩) none (by decide) (by decide)
  have ha : ¬ a.Mapped := by
    have haddress : a.address / 2 ^ 32 ≠ 0xFFFF := by decide +kernel
    exact haddress
  have hb : ¬ a.plain.Mapped := by
    have haddress : a.plain.address / 2 ^ 32 ≠ 0xFFFF := by decide +kernel
    exact haddress
  have hnetwork : a.network = a.plain.network := by decide +kernel
  have hkeys : a.keyValues ≠ a.plain.keyValues := by decide +kernel
  refine ⟨a, a.plain, by decide +kernel, by decide +kernel, ha, hb, fun isIP hfirst hsecond hkeyed =>
    hkeys ?_⟩
  have hrequest : FromIpv6 isIP (socketRequest a.text) none a := ⟨rfl, hfirst, ha⟩
  have hother : FromIpv6 isIP (socketRequest a.plain.text) none a.plain := ⟨rfl, hsecond, hb⟩
  exact (clientAddress_eq_iff hrequest hother).1 ((hkeyed _ _ _ _ hrequest hother).2 hnetwork)

end Pmbah.Admission
