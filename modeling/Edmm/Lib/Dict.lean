/-
  Edmm/Lib/Dict.lean
  ==================
  **Insertion-ordered dictionaries.**

  A dictionary is the list of its items in insertion order together with the
  proof that no key occurs twice.  Writing an existing key keeps its position,
  writing a new key appends, deleting removes the item.  Everything later
  modules need is a lookup equation for each operation, plus the permutation
  facts that let an item be taken out of `items` and put back.
-/
import Mathlib.Algebra.BigOperators.Group.List.Basic
import Mathlib.Data.List.Nodup
import Mathlib.Data.List.Perm.Basic

namespace Edmm

universe u v w

/-- Items in insertion order, no key twice. -/
structure Dict (κ : Type u) (α : Type v) where
  items : List (κ × α)
  nodupKeys : (items.map Prod.fst).Nodup
deriving DecidableEq

namespace Dict

variable {κ : Type u} {α : Type v} {β : Type w}

/-! ### Operations -/

def empty : Dict κ α := ⟨[], by simp⟩

instance : EmptyCollection (Dict κ α) := ⟨empty⟩

def keys (d : Dict κ α) : List κ := d.items.map Prod.fst

def values (d : Dict κ α) : List α := d.items.map Prod.snd

/-- Keep the items whose key passes the test. -/
def filterKeys (keep : κ → Bool) (d : Dict κ α) : Dict κ α :=
  ⟨d.items.filter fun item => keep item.1, d.nodupKeys.sublist (List.filter_sublist.map _)⟩

/-- Change every value, keeping keys and order. -/
def mapValues (f : κ → α → β) (d : Dict κ α) : Dict κ β :=
  ⟨d.items.map fun item => (item.1, f item.1 item.2), by
    simpa [List.map_map, Function.comp_def] using d.nodupKeys⟩

@[simp] theorem items_empty : (∅ : Dict κ α).items = [] := rfl

@[simp] theorem keys_empty : (∅ : Dict κ α).keys = [] := rfl

@[simp] theorem values_empty : (∅ : Dict κ α).values = [] := rfl

theorem items_nodup (d : Dict κ α) : d.items.Nodup := d.nodupKeys.of_map _

theorem mapValues_mapValues {γ : Type w} (d : Dict κ α) (f : κ → α → β) (g : κ → β → γ) :
    (d.mapValues f).mapValues g = d.mapValues fun key value => g key (f key value) := by
  simp [mapValues, Function.comp_def]

theorem mapValues_self (d : Dict κ α) : (d.mapValues fun _ value => value) = d := by
  simp [mapValues]

variable [DecidableEq κ]

def get? (d : Dict κ α) (key : κ) : Option α :=
  (d.items.find? fun item => item.1 = key).map Prod.snd

def erase (d : Dict κ α) (key : κ) : Dict κ α := d.filterKeys fun k => k ≠ key

/-- `d[key] = value`: in place for a present key, at the end for a new one. -/
def set (d : Dict κ α) (key : κ) (value : α) : Dict κ α :=
  if hkey : key ∈ d.keys then
    d.mapValues fun k old => if k = key then value else old
  else
    ⟨d.items ++ [(key, value)], by
      rw [List.map_append, List.map_singleton, List.nodup_append]
      refine ⟨d.nodupKeys, by simp, ?_⟩
      intro k hk k' hk' heq
      rw [List.mem_singleton] at hk'
      exact hkey (by rw [heq, hk'] at hk; exact hk)⟩

/-! ### Lookup and membership -/

theorem mem_items_iff {d : Dict κ α} {key : κ} {value : α} :
    (key, value) ∈ d.items ↔ d.get? key = some value := by
  rcases d with ⟨items, hnodup⟩
  induction items with
  | nil => simp [get?]
  | cons item items ih =>
    rcases item with ⟨k, a⟩
    rw [List.map_cons, List.nodup_cons] at hnodup
    have ih := ih hnodup.2
    simp only [get?] at ih ⊢
    by_cases hk : k = key
    · subst hk
      have habsent : (k, value) ∉ items := fun hmem =>
        hnodup.1 (List.mem_map.mpr ⟨_, hmem, rfl⟩)
      simp [habsent, eq_comm]
    · have hk' : key ≠ k := fun h => hk h.symm
      simp only [List.mem_cons, Prod.mk.injEq, hk', false_and, false_or, ih]
      rw [List.find?_cons_of_neg (by simpa using hk)]

theorem mem_keys_iff {d : Dict κ α} {key : κ} :
    key ∈ d.keys ↔ ∃ value, d.get? key = some value := by
  simp only [keys, List.mem_map, Prod.exists, exists_and_right, exists_eq_right]
  exact exists_congr fun value => mem_items_iff

theorem mem_values_iff {d : Dict κ α} {value : α} :
    value ∈ d.values ↔ ∃ key, d.get? key = some value := by
  simp only [values, List.mem_map, Prod.exists, exists_eq_right]
  exact exists_congr fun key => mem_items_iff

theorem get?_eq_none_iff {d : Dict κ α} {key : κ} :
    d.get? key = none ↔ key ∉ d.keys := by
  rw [mem_keys_iff, ← Option.isSome_iff_exists, Option.not_isSome_iff_eq_none]

@[simp] theorem get?_empty (key : κ) : (∅ : Dict κ α).get? key = none := rfl

/-- Only the values at the keys of the dictionary matter. -/
theorem mapValues_congr {d : Dict κ α} {f g : κ → α → β}
    (h : ∀ key value, d.get? key = some value → f key value = g key value) :
    d.mapValues f = d.mapValues g := by
  simp only [mapValues, Dict.mk.injEq]
  apply List.map_congr_left
  rintro ⟨key, value⟩ hmem
  rw [h key value (mem_items_iff.mp hmem)]

/-- Writing a present key of a mapped dictionary is mapping another value there. -/
theorem set_mapValues {d : Dict κ α} {f g : κ → α → β} {key : κ} {value : α}
    (hkey : d.get? key = some value)
    (hothers : ∀ k v, d.get? k = some v → k ≠ key → g k v = f k v) :
    (d.mapValues f).set key (g key value) = d.mapValues g := by
  have hmem : key ∈ (d.mapValues f).keys := by
    have hvalue : (key, value) ∈ d.items := mem_items_iff.mpr hkey
    simp only [keys, mapValues, List.map_map, List.mem_map]
    exact ⟨_, hvalue, rfl⟩
  rw [set, dif_pos hmem]
  simp only [mapValues, Dict.mk.injEq, List.map_map]
  apply List.map_congr_left
  rintro ⟨k, v⟩ hitem
  have hget := mem_items_iff.mp hitem
  by_cases heq : k = key
  · subst heq
    rw [hkey, Option.some.injEq] at hget
    simp [← hget]
  · simp [heq, hothers k v hget heq]

/-- Two dictionaries with the same lookups at a key agree on every value there. -/
theorem get?_eq_of_mem_iff {d : Dict κ α} {o : Option α} {key : κ}
    (h : ∀ value, (key, value) ∈ d.items ↔ o = some value) : d.get? key = o := by
  cases ho : o with
  | some value => exact mem_items_iff.mp ((h value).mpr ho)
  | none =>
    rw [get?_eq_none_iff, mem_keys_iff]
    rintro ⟨value, hvalue⟩
    have := (h value).mp (mem_items_iff.mpr hvalue)
    rw [ho] at this
    cases this

@[simp] theorem get?_filterKeys (d : Dict κ α) (keep : κ → Bool) (key : κ) :
    (d.filterKeys keep).get? key = if keep key then d.get? key else none := by
  apply get?_eq_of_mem_iff
  intro value
  by_cases hkeep : keep key <;> simp [filterKeys, hkeep, mem_items_iff]

@[simp] theorem get?_mapValues (d : Dict κ α) (f : κ → α → β) (key : κ) :
    (d.mapValues f).get? key = (d.get? key).map (f key) := by
  apply get?_eq_of_mem_iff
  intro value
  simp only [mapValues, List.mem_map, Prod.mk.injEq, Prod.exists, Option.map_eq_some_iff,
    mem_items_iff]
  constructor
  · rintro ⟨k, a, hget, rfl, rfl⟩
    exact ⟨a, hget, rfl⟩
  · rintro ⟨a, hget, rfl⟩
    exact ⟨key, a, hget, rfl, rfl⟩

theorem get?_erase (d : Dict κ α) (key other : κ) :
    (d.erase key).get? other = if other = key then none else d.get? other := by
  by_cases h : other = key <;> simp [erase, h]

@[simp] theorem get?_erase_self (d : Dict κ α) (key : κ) : (d.erase key).get? key = none := by
  simp [get?_erase]

theorem get?_erase_of_ne (d : Dict κ α) {key other : κ} (h : other ≠ key) :
    (d.erase key).get? other = d.get? other := by
  simp [get?_erase, h]

theorem get?_set (d : Dict κ α) (key other : κ) (value : α) :
    (d.set key value).get? other = if other = key then some value else d.get? other := by
  unfold set
  by_cases hkey : key ∈ d.keys
  · rw [dif_pos hkey, get?_mapValues]
    by_cases h : other = key
    · subst h
      obtain ⟨old, hold⟩ := mem_keys_iff.mp hkey
      simp [hold]
    · simp [h]
  · rw [dif_neg hkey]
    apply get?_eq_of_mem_iff
    intro a
    by_cases h : other = key
    · subst h
      have habsent : (other, a) ∉ d.items := fun hmem =>
        hkey (List.mem_map.mpr ⟨_, hmem, rfl⟩)
      simp [habsent, eq_comm]
    · simp [h, mem_items_iff]

@[simp] theorem get?_set_self (d : Dict κ α) (key : κ) (value : α) :
    (d.set key value).get? key = some value := by
  simp [get?_set]

theorem get?_set_of_ne (d : Dict κ α) {key other : κ} (value : α) (h : other ≠ key) :
    (d.set key value).get? other = d.get? other := by
  simp [get?_set, h]

/-! ### Writing one item after another -/

def setAll (d : Dict κ α) (items : List (κ × α)) : Dict κ α :=
  items.foldl (fun d item => d.set item.1 item.2) d

theorem get?_setAll_of_not_mem (d : Dict κ α) {items : List (κ × α)} {key : κ}
    (h : key ∉ items.map Prod.fst) : (d.setAll items).get? key = d.get? key := by
  induction items generalizing d with
  | nil => rfl
  | cons item rest ih =>
    rw [List.map_cons, List.mem_cons, not_or] at h
    exact (ih (d.set item.1 item.2) h.2).trans (get?_set_of_ne d item.2 h.1)

theorem get?_setAll_of_mem (d : Dict κ α) {items : List (κ × α)} {key : κ} {value : α}
    (hnodup : (items.map Prod.fst).Nodup) (h : (key, value) ∈ items) :
    (d.setAll items).get? key = some value := by
  induction items generalizing d with
  | nil => cases h
  | cons item rest ih =>
    rw [List.map_cons, List.nodup_cons] at hnodup
    rcases List.mem_cons.mp h with rfl | hrest
    · exact (get?_setAll_of_not_mem _ hnodup.1).trans (get?_set_self d key value)
    · exact ih _ hnodup.2 hrest

/-! ### Keys of an updated dictionary -/

theorem mem_keys_set {d : Dict κ α} {key other : κ} {value : α} :
    other ∈ (d.set key value).keys ↔ other = key ∨ other ∈ d.keys := by
  by_cases h : other = key
  · simp [mem_keys_iff, h]
  · simp [mem_keys_iff, get?_set_of_ne d value h, h]

theorem mem_keys_erase {d : Dict κ α} {key other : κ} :
    other ∈ (d.erase key).keys ↔ other ≠ key ∧ other ∈ d.keys := by
  by_cases h : other = key
  · simp [mem_keys_iff, h]
  · simp [mem_keys_iff, get?_erase_of_ne d h, h]

/-! ### Items of an updated dictionary -/

theorem items_set_of_absent {d : Dict κ α} {key : κ} (value : α) (h : d.get? key = none) :
    (d.set key value).items = d.items ++ [(key, value)] := by
  unfold set
  rw [dif_neg (get?_eq_none_iff.mp h)]

theorem values_set_of_absent {d : Dict κ α} {key : κ} (value : α) (h : d.get? key = none) :
    (d.set key value).values = d.values ++ [value] := by
  simp [values, items_set_of_absent value h]

/-- Dictionaries with the same lookups hold the same items, up to order. -/
theorem items_perm_of_get?_eq {d e : Dict κ α} (h : ∀ key, d.get? key = e.get? key) :
    d.items.Perm e.items := by
  rw [List.perm_ext_iff_of_nodup d.items_nodup e.items_nodup]
  rintro ⟨key, value⟩
  rw [mem_items_iff, mem_items_iff, h key]

/-- A present item can be taken out of the dictionary. -/
theorem items_perm_cons_erase {d : Dict κ α} {key : κ} {value : α}
    (h : d.get? key = some value) : d.items.Perm ((key, value) :: (d.erase key).items) := by
  rw [List.perm_ext_iff_of_nodup d.items_nodup]
  · rintro ⟨k, a⟩
    rw [List.mem_cons, mem_items_iff, mem_items_iff, get?_erase, Prod.mk.injEq]
    by_cases hk : k = key
    · subst hk
      simp [h, eq_comm]
    · simp [hk]
  · rw [List.nodup_cons]
    refine ⟨?_, (d.erase key).items_nodup⟩
    rw [mem_items_iff, get?_erase_self]
    simp

theorem values_perm_cons_erase {d : Dict κ α} {key : κ} {value : α}
    (h : d.get? key = some value) : d.values.Perm (value :: (d.erase key).values) :=
  (items_perm_cons_erase h).map Prod.snd

section Sum

variable [AddCommMonoid α]

theorem sum_values_set_of_absent {d : Dict κ α} {key : κ} (value : α) (h : key ∉ d.keys) :
    (d.set key value).values.sum = d.values.sum + value := by
  rw [values_set_of_absent value (get?_eq_none_iff.mpr h), List.sum_append, List.sum_singleton]

/-- What is erased is missing in the sum. -/
theorem sum_values_erase {d : Dict κ α} {key : κ} {value : α} (h : d.get? key = some value) :
    value + (d.erase key).values.sum = d.values.sum := by
  rw [(values_perm_cons_erase h).sum_eq, List.sum_cons]

end Sum

/-- Writing a key exposes the written value in front of the other items. -/
theorem values_set_perm_cons_erase (d : Dict κ α) (key : κ) (value : α) :
    (d.set key value).values.Perm (value :: (d.erase key).values) := by
  have htaken := items_perm_cons_erase (get?_set_self d key value)
  have hrest : ((d.set key value).erase key).items.Perm (d.erase key).items :=
    items_perm_of_get?_eq fun k => by
      by_cases hk : k = key <;> simp [get?_erase, get?_set, hk]
  exact (htaken.trans (hrest.cons _)).map Prod.snd

end Dict

end Edmm
