import Mathlib.Data.List.Basic
import Mathlib.Data.List.Nodup

/-!
# Insertion-ordered maps and sets

A map lists its entries in the order their keys were first set.  Setting a key
that is present keeps its place, and deleting it forgets the place.
-/

namespace Pmbah.Library

/-- Under distinct keys a lookup finds every entry. -/
theorem lookup_eq_some_iff_mem {κ ν : Type} [BEq κ] [LawfulBEq κ] {entries : List (κ × ν)} {key : κ}
    {value : ν} (hnodup : (entries.map Prod.fst).Nodup) :
    entries.lookup key = some value ↔ (key, value) ∈ entries := by
  induction entries with
  | nil => simp
  | cons entry entries ih =>
      obtain ⟨name, first⟩ := entry
      rw [List.map_cons, List.nodup_cons] at hnodup
      rw [List.lookup_cons, List.mem_cons, Prod.mk.injEq]
      by_cases hname : key = name
      · subst hname
        have habsent : (key, value) ∉ entries := fun hmem =>
          hnodup.1 (List.mem_map.2 ⟨(key, value), hmem, rfl⟩)
        simp [habsent, eq_comm]
      · rw [show (key == name) = false from beq_eq_false_iff_ne.2 hname]
        simp [hname, ih hnodup.2]

structure OrderedMap (κ ν : Type) where
  entries : List (κ × ν)
  nodup : (entries.map Prod.fst).Nodup

namespace OrderedMap

variable {κ ν : Type} [DecidableEq κ]

def empty : OrderedMap κ ν := ⟨[], .nil⟩

instance : EmptyCollection (OrderedMap κ ν) := ⟨empty⟩

def get? (map : OrderedMap κ ν) (key : κ) : Option ν := map.entries.lookup key

def has (map : OrderedMap κ ν) (key : κ) : Bool := (map.get? key).isSome

def values (map : OrderedMap κ ν) : List ν := map.entries.map Prod.snd

def keys (map : OrderedMap κ ν) : List κ := map.entries.map Prod.fst

/-- The entries with the value of a key replaced. -/
def replace (key : κ) (value : ν) (entries : List (κ × ν)) : List (κ × ν) :=
  entries.map fun entry => if entry.1 = key then (key, value) else entry

theorem map_fst_replace (key : κ) (value : ν) (entries : List (κ × ν)) :
    (replace key value entries).map Prod.fst = entries.map Prod.fst := by
  rw [replace, List.map_map]
  apply List.map_congr_left
  intro entry _
  by_cases h : entry.1 = key <;> simp [h]

theorem lookup_eq_none_of_not_mem {key : κ} {entries : List (κ × ν)}
    (h : key ∉ entries.map Prod.fst) : entries.lookup key = none := by
  rw [List.lookup_eq_none_iff]
  intro entry hentry
  rw [bne_iff_ne]
  rintro rfl
  exact h (List.mem_map_of_mem hentry)

theorem mem_keys_iff {map : OrderedMap κ ν} {key : κ} :
    key ∈ map.keys ↔ ∃ value, map.get? key = some value := by
  constructor
  · intro hkey
    by_contra hnone
    have hlookup : map.entries.lookup key = none := by
      cases hget : map.entries.lookup key with
      | none => rfl
      | some value => exact absurd ⟨value, hget⟩ hnone
    rw [List.lookup_eq_none_iff] at hlookup
    obtain ⟨entry, hentry, rfl⟩ := List.mem_map.1 hkey
    simpa using hlookup entry hentry
  · rintro ⟨value, hvalue⟩
    by_contra hkey
    rw [get?, lookup_eq_none_of_not_mem hkey] at hvalue
    cases hvalue

def set (map : OrderedMap κ ν) (key : κ) (value : ν) : OrderedMap κ ν :=
  if h : key ∈ map.keys then
    ⟨replace key value map.entries, by rw [map_fst_replace]; exact map.nodup⟩
  else
    ⟨map.entries ++ [(key, value)], by
      rw [List.map_append, List.nodup_append]
      refine ⟨map.nodup, by simp, ?_⟩
      intro a ha b hb
      rintro rfl
      rw [List.map_singleton, List.mem_singleton] at hb
      exact h (by rwa [hb] at ha)⟩

def delete (map : OrderedMap κ ν) (key : κ) : OrderedMap κ ν :=
  ⟨map.entries.filter fun entry => entry.1 ≠ key, by
    apply List.Nodup.sublist _ map.nodup
    exact List.Sublist.map _ List.filter_sublist⟩

@[simp] theorem get?_empty (key : κ) : (∅ : OrderedMap κ ν).get? key = none := rfl

theorem lookup_replace_self {key : κ} {value : ν} {entries : List (κ × ν)}
    (h : key ∈ entries.map Prod.fst) : (replace key value entries).lookup key = some value := by
  induction entries with
  | nil => simp at h
  | cons entry entries ih =>
      simp only [replace, List.map_cons, List.mem_cons] at h ⊢
      by_cases hentry : entry.1 = key
      · simp [hentry]
      · rw [if_neg hentry, List.lookup_cons]
        rw [show (key == entry.1) = false from beq_eq_false_iff_ne.2 (Ne.symm hentry)]
        exact ih (h.resolve_left (Ne.symm hentry))

theorem lookup_replace_ne {key other : κ} (value : ν) (entries : List (κ × ν))
    (h : other ≠ key) : (replace key value entries).lookup other = entries.lookup other := by
  induction entries with
  | nil => rfl
  | cons entry entries ih =>
      simp only [replace, List.map_cons] at ih ⊢
      by_cases hentry : entry.1 = key
      · rw [if_pos hentry, List.lookup_cons, List.lookup_cons, hentry,
          show (other == key) = false from beq_eq_false_iff_ne.2 h]
        exact ih
      · rw [if_neg hentry, List.lookup_cons, List.lookup_cons, ih]

@[simp] theorem get?_set_self (map : OrderedMap κ ν) (key : κ) (value : ν) :
    (map.set key value).get? key = some value := by
  unfold set get?
  split
  · exact lookup_replace_self ‹_›
  · rename_i h
    rw [List.lookup_append, lookup_eq_none_of_not_mem h]
    simp

theorem get?_set_ne (map : OrderedMap κ ν) {key other : κ} (value : ν) (h : other ≠ key) :
    (map.set key value).get? other = map.get? other := by
  unfold set get?
  split
  · exact lookup_replace_ne value map.entries h
  · rw [List.lookup_append, List.lookup_cons, show (other == key) = false from
      beq_eq_false_iff_ne.2 h]
    simp

theorem get?_set (map : OrderedMap κ ν) (key other : κ) (value : ν) :
    (map.set key value).get? other = if other = key then some value else map.get? other := by
  split
  · rename_i h
    rw [h, get?_set_self]
  · exact map.get?_set_ne value ‹_›

theorem length_values_set_le (map : OrderedMap κ ν) (key : κ) (value : ν) :
    (map.set key value).values.length ≤ map.values.length + 1 := by
  rw [values, values, List.length_map, List.length_map, set]
  split
  · have hlength := congrArg List.length (map_fst_replace key value map.entries)
    rw [List.length_map, List.length_map] at hlength
    show (replace key value map.entries).length ≤ _
    omega
  · simp

/-- A key that is new comes last. -/
theorem entries_set_of_absent {map : OrderedMap κ ν} {key : κ} (value : ν)
    (h : map.get? key = none) : (map.set key value).entries = map.entries ++ [(key, value)] := by
  have hkeys : key ∉ map.keys := by
    intro hkey
    obtain ⟨other, hother⟩ := mem_keys_iff.1 hkey
    rw [h] at hother
    cases hother
  rw [set, dif_neg hkeys]

theorem keys_set_of_absent {map : OrderedMap κ ν} {key : κ} (value : ν)
    (h : map.get? key = none) : (map.set key value).keys = map.keys ++ [key] := by
  rw [keys, entries_set_of_absent value h, List.map_append]
  rfl

theorem keys_set_of_present {map : OrderedMap κ ν} {key : κ} {present : ν} (value : ν)
    (h : map.get? key = some present) : (map.set key value).keys = map.keys := by
  rw [set, dif_pos (mem_keys_iff.2 ⟨present, h⟩)]
  exact map_fst_replace key value map.entries

theorem get?_delete (map : OrderedMap κ ν) (key other : κ) :
    (map.delete key).get? other = if other = key then none else map.get? other := by
  unfold delete get?
  simp only
  split
  · rename_i h
    rw [List.lookup_eq_none_iff]
    intro entry hentry
    have hne := (List.mem_filter.1 hentry).2
    rw [bne_iff_ne, h]
    exact Ne.symm (by simpa using hne)
  · rename_i h
    induction map.entries with
    | nil => rfl
    | cons entry entries ih =>
        rw [List.lookup_cons, List.filter_cons]
        by_cases hentry : entry.1 = key
        · rw [if_neg (by simpa using hentry), ih, hentry,
            show (other == key) = false from beq_eq_false_iff_ne.2 h]
        · rw [if_pos (by simpa using hentry), List.lookup_cons, ih]

@[simp] theorem get?_delete_self (map : OrderedMap κ ν) (key : κ) :
    (map.delete key).get? key = none := by
  rw [get?_delete, if_pos rfl]

theorem get?_delete_ne (map : OrderedMap κ ν) {key other : κ} (h : other ≠ key) :
    (map.delete key).get? other = map.get? other := by
  rw [get?_delete, if_neg h]

def deleteAll (map : OrderedMap κ ν) (keys : List κ) : OrderedMap κ ν := keys.foldl delete map

theorem get?_deleteAll (map : OrderedMap κ ν) (keys : List κ) (other : κ) :
    (map.deleteAll keys).get? other = if other ∈ keys then none else map.get? other := by
  induction keys generalizing map with
  | nil => simp [deleteAll]
  | cons key keys ih =>
      rw [show map.deleteAll (key :: keys) = (map.delete key).deleteAll keys from rfl, ih,
        get?_delete]
      by_cases hkeys : other ∈ keys
      · rw [if_pos hkeys, if_pos (List.mem_cons_of_mem key hkeys)]
      · rw [if_neg hkeys]
        by_cases hkey : other = key
        · rw [if_pos hkey, if_pos (by simp [hkey])]
        · rw [if_neg hkey, if_neg (by simp [hkey, hkeys])]

theorem mem_entries_iff {map : OrderedMap κ ν} {key : κ} {value : ν} :
    (key, value) ∈ map.entries ↔ map.get? key = some value :=
  (lookup_eq_some_iff_mem map.nodup).symm

theorem mem_values_iff {map : OrderedMap κ ν} {value : ν} :
    value ∈ map.values ↔ ∃ key, map.get? key = some value := by
  simp only [values, List.mem_map, Prod.exists, exists_eq_right, mem_entries_iff]

end OrderedMap

/-- A set that lists its members in the order they were added. -/
structure OrderedSet (κ : Type) where
  members : List κ
  nodup : members.Nodup

namespace OrderedSet

variable {κ : Type} [DecidableEq κ]

instance : EmptyCollection (OrderedSet κ) := ⟨⟨[], .nil⟩⟩

instance : Membership κ (OrderedSet κ) := ⟨fun set key => key ∈ set.members⟩

instance (set : OrderedSet κ) (key : κ) : Decidable (key ∈ set) :=
  inferInstanceAs (Decidable (key ∈ set.members))

def add (set : OrderedSet κ) (key : κ) : OrderedSet κ :=
  if h : key ∈ set.members then set
  else ⟨set.members ++ [key], by
    rw [List.nodup_append]
    refine ⟨set.nodup, by simp, ?_⟩
    intro a ha b hb
    rintro rfl
    exact h (by simpa [List.mem_singleton.1 hb] using ha)⟩

def delete (set : OrderedSet κ) (key : κ) : OrderedSet κ :=
  ⟨set.members.filter fun member => member ≠ key, set.nodup.filter _⟩

def addAll (set : OrderedSet κ) (keys : List κ) : OrderedSet κ := keys.foldl add set

def deleteAll (set : OrderedSet κ) (keys : List κ) : OrderedSet κ := keys.foldl delete set

omit [DecidableEq κ] in
theorem mem_members {set : OrderedSet κ} {key : κ} : key ∈ set.members ↔ key ∈ set := Iff.rfl

omit [DecidableEq κ] in
@[simp] theorem not_mem_empty (key : κ) : key ∉ (∅ : OrderedSet κ) := List.not_mem_nil

@[simp] theorem mem_add {set : OrderedSet κ} {key other : κ} :
    other ∈ set.add key ↔ other = key ∨ other ∈ set := by
  rw [← mem_members, ← mem_members, add]
  split
  · rename_i h
    constructor
    · exact Or.inr
    · rintro (rfl | hother)
      · exact h
      · exact hother
  · simp [or_comm]

@[simp] theorem mem_delete {set : OrderedSet κ} {key other : κ} :
    other ∈ set.delete key ↔ other ≠ key ∧ other ∈ set := by
  rw [← mem_members, ← mem_members, delete]
  simp [and_comm]

@[simp] theorem mem_addAll {set : OrderedSet κ} {keys : List κ} {other : κ} :
    other ∈ set.addAll keys ↔ other ∈ keys ∨ other ∈ set := by
  induction keys generalizing set with
  | nil => simp [addAll]
  | cons key keys ih =>
      rw [show set.addAll (key :: keys) = (set.add key).addAll keys from rfl, ih, mem_add,
        List.mem_cons]
      tauto

@[simp] theorem mem_deleteAll {set : OrderedSet κ} {keys : List κ} {other : κ} :
    other ∈ set.deleteAll keys ↔ other ∉ keys ∧ other ∈ set := by
  induction keys generalizing set with
  | nil => simp [deleteAll]
  | cons key keys ih =>
      rw [show set.deleteAll (key :: keys) = (set.delete key).deleteAll keys from rfl, ih,
        mem_delete, List.mem_cons]
      tauto

end OrderedSet

end Pmbah.Library
