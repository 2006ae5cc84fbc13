import Mathlib.Algebra.Group.Nat.Defs
import Mathlib.Data.List.Nodup

/-!
# The hash map

Model of `libs/types/c/src/icHashMap.c` at the level its users see: the items in
the order they were put, no two with the same key.  The source spreads them over
31 buckets chosen with a seed taken from the clock, so the order in which it
iterates is one its users cannot know.  `hashMapPut` appends to a bucket and
refuses a key that is there, `hashMapDelete` unlinks one item, and values are
pointers that the users of the map modify in place (`hashMapModify`).

`count` is the `uint16_t` counter the source keeps beside the items.
-/

namespace ZilkerSdk.Types

open List

/-! ## C strings and keys -/

/-- A C string: the characters before the terminating NUL. -/
abbrev CString := List Char

/-- The bytes of a hash map key. -/
abbrev Key := List Char

instance : LawfulBEq Key := inferInstance

/-- The key made by `(s, strlen(s) + 1)`: the length is passed as `uint16_t`, so
the key of a string of 65535 characters or more is cut short. -/
def stringKey (s : CString) : Key := (s ++ ['\x00']).take ((s.length + 1) % 2 ^ 16)

theorem stringKey_injective {s t : CString} (hs : s.length + 1 < 2 ^ 16)
    (ht : t.length + 1 < 2 ^ 16) (h : stringKey s = stringKey t) : s = t := by
  unfold stringKey at h
  rw [Nat.mod_eq_of_lt hs, Nat.mod_eq_of_lt ht, take_of_length_le (by simp),
    take_of_length_le (by simp)] at h
  exact append_cancel_right h

/-! ## The map -/

/-- `struct _icHashMap`, with the buckets flattened to one list. -/
structure IcHashMap (κ ν : Type*) where
  items : List (κ × ν)
  count : Nat
  nodupKeys : (items.map Prod.fst).Nodup

variable {κ ν : Type*} [DecidableEq κ]

def hashMapCreate : IcHashMap κ ν := ⟨[], 0, List.nodup_nil⟩

instance : Inhabited (IcHashMap κ ν) := ⟨hashMapCreate⟩

/-- `searchHashMap`: the first item with the key. -/
def searchHashMap (m : IcHashMap κ ν) (k : κ) : Option (κ × ν) :=
  m.items.find? fun item => item.1 = k

def hashMapGet (m : IcHashMap κ ν) (k : κ) : Option ν := (searchHashMap m k).map Prod.snd

def hashMapContains (m : IcHashMap κ ν) (k : κ) : Bool := (searchHashMap m k).isSome

def hashMapCount (m : IcHashMap κ ν) : Nat := m.count

variable {m : IcHashMap κ ν} {k : κ} {v : ν} {items : List (κ × ν)}

theorem searchHashMap_eq_none_iff : searchHashMap m k = none ↔ k ∉ m.items.map Prod.fst := by
  rw [searchHashMap, find?_eq_none, mem_map]
  constructor
  · rintro h ⟨item, hitem, hkey⟩
    exact h item hitem (by simpa using hkey)
  · intro h item hitem hkey
    exact h ⟨item, hitem, by simpa using hkey⟩

/-- Append an item unless its key is there; the result tells whether it was added. -/
def hashMapPut (m : IcHashMap κ ν) (k : κ) (v : ν) : IcHashMap κ ν × Bool :=
  match h : searchHashMap m k with
  -- the old value stays, and the caller keeps the new one
  | some _ => (m, false)
  | none =>
    (⟨m.items ++ [(k, v)], (m.count + 1) % 2 ^ 16, by
      rw [List.map_append, List.nodup_append]
      refine ⟨m.nodupKeys, List.nodup_singleton k, ?_⟩
      intro a ha b hb hab
      have : b = k := by simpa using hb
      exact searchHashMap_eq_none_iff.mp h (this ▸ hab ▸ ha)⟩, true)

/-- Unlink the item with the key; the result tells whether there was one. -/
def hashMapDelete (m : IcHashMap κ ν) (k : κ) : IcHashMap κ ν × Bool :=
  match searchHashMap m k with
  | none => (m, false)
  | some _ =>
    (⟨m.items.eraseP fun item => item.1 = k, m.count - 1,
      m.nodupKeys.sublist (List.eraseP_sublist.map Prod.fst)⟩, true)

/-- Change the value stored under a key through the pointer held by the map. -/
def hashMapModify (m : IcHashMap κ ν) (k : κ) (f : ν → ν) : IcHashMap κ ν :=
  ⟨m.items.map fun item => if item.1 = k then (item.1, f item.2) else item, m.count, by
    have hfst : (Prod.fst ∘ fun item : κ × ν => if item.1 = k then (item.1, f item.2) else item) =
        Prod.fst := by
      funext item
      simp only [Function.comp]
      split <;> rfl
    rw [List.map_map, hfst]
    exact m.nodupKeys⟩

/-- Change all values through the pointers held by the map. -/
def hashMapModifyAll (m : IcHashMap κ ν) (f : ν → ν) : IcHashMap κ ν :=
  ⟨m.items.map fun item => (item.1, f item.2), m.count, by
    rw [List.map_map]
    exact m.nodupKeys⟩

/-! ## Lookups -/

/-- An item is in the map exactly when a lookup finds it. -/
theorem mem_items_iff : (k, v) ∈ m.items ↔ hashMapGet m k = some v := by
  constructor
  · intro hmem
    unfold hashMapGet searchHashMap
    cases hfind : m.items.find? fun item => item.1 = k with
    | none =>
      rw [find?_eq_none] at hfind
      exact absurd (hfind _ hmem) (by simp)
    | some item =>
      have hkey : item.1 = k := by simpa using find?_some hfind
      have hitem := mem_of_find?_eq_some hfind
      -- both items carry the key `k`, and keys do not repeat
      have heq : item = (k, v) := inj_on_of_nodup_map m.nodupKeys hitem hmem hkey
      simp [heq]
  · intro hget
    obtain ⟨item, hfind, rfl⟩ := Option.map_eq_some_iff.mp hget
    have hkey : item.1 = k := by simpa using find?_some hfind
    exact hkey ▸ mem_of_find?_eq_some hfind

theorem hashMapGet_eq_none_iff : hashMapGet m k = none ↔ k ∉ m.items.map Prod.fst := by
  rw [← searchHashMap_eq_none_iff, hashMapGet, Option.map_eq_none_iff]

theorem hashMapContains_eq (m : IcHashMap κ ν) (k : κ) :
    hashMapContains m k = (hashMapGet m k).isSome := by
  simp [hashMapContains, hashMapGet]

@[simp] theorem hashMapGet_create (k : κ) : hashMapGet (hashMapCreate : IcHashMap κ ν) k = none :=
  rfl

theorem hashMapGet_congr {m' : IcHashMap κ ν} (h : m.items = m'.items) (k : κ) :
    hashMapGet m k = hashMapGet m' k := by
  simp [hashMapGet, searchHashMap, h]

/-! ## Put -/

theorem hashMapPut_snd (m : IcHashMap κ ν) (k : κ) (v : ν) :
    (hashMapPut m k v).2 = true ↔ hashMapGet m k = none := by
  rw [hashMapGet, Option.map_eq_none_iff]
  unfold hashMapPut
  split <;> simp [*]

theorem items_put_of_free (v : ν) (h : hashMapGet m k = none) :
    (hashMapPut m k v).1.items = m.items ++ [(k, v)] := by
  rw [hashMapGet, Option.map_eq_none_iff] at h
  unfold hashMapPut
  split
  · simp_all
  · rfl

theorem hashMapPut_of_taken {w : ν} (h : hashMapGet m k = some w) :
    hashMapPut m k v = (m, false) := by
  rw [hashMapGet, Option.map_eq_some_iff] at h
  unfold hashMapPut
  split
  · rfl
  · simp_all

theorem hashMapGet_put (h : hashMapGet m k = none) (k' : κ) :
    hashMapGet (hashMapPut m k v).1 k' = if k' = k then some v else hashMapGet m k' := by
  unfold hashMapGet searchHashMap
  rw [items_put_of_free v h, find?_append]
  by_cases hk : k' = k
  · subst hk
    rw [hashMapGet, Option.map_eq_none_iff, searchHashMap] at h
    simp [h]
  · have : ¬ k = k' := fun e => hk e.symm
    simp [hk, this]

/-- A put never replaces a value. -/
theorem hashMapGet_put_or (m : IcHashMap κ ν) (k k' : κ) :
    hashMapGet (hashMapPut m k v).1 k' =
      (hashMapGet m k').or (if k' = k then some v else none) := by
  cases h : hashMapGet m k with
  | some w =>
    rw [hashMapPut_of_taken h]
    by_cases hk : k' = k <;> simp [hk, h]
  | none =>
    rw [hashMapGet_put h]
    by_cases hk : k' = k <;> simp [hk, h]

/-! ## Delete -/

theorem filter_ne_of_free (h : k ∉ items.map Prod.fst) :
    (items.filter fun item => item.1 ≠ k) = items := by
  refine filter_eq_self.mpr fun item hitem => ?_
  have hne : item.1 ≠ k := fun e => h (e ▸ mem_map_of_mem hitem)
  simpa using hne

theorem eraseP_eq_filter_ne (k : κ) (h : (items.map Prod.fst).Nodup) :
    (items.eraseP fun item => item.1 = k) = items.filter fun item => item.1 ≠ k := by
  induction items with
  | nil => rfl
  | cons item items ih =>
    rw [map_cons, nodup_cons] at h
    -- at the item with the key, no further one has it
    by_cases hk : item.1 = k
    · have hfree := filter_ne_of_free (ν := ν) (hk ▸ h.1)
      simp only [eraseP_cons, hk, decide_true, cond_true, filter_cons, ne_eq,
        not_true_eq_false, decide_false, Bool.false_eq_true, if_false]
      exact hfree.symm
    · simp only [eraseP_cons, hk, decide_false, cond_false, filter_cons, ne_eq,
        not_false_eq_true, decide_true, if_true, ih h.2]

/-- Deleting a key keeps exactly the items with other keys. -/
theorem items_delete (m : IcHashMap κ ν) (k : κ) :
    (hashMapDelete m k).1.items = m.items.filter fun item => item.1 ≠ k := by
  unfold hashMapDelete
  split
  · rename_i h
    exact (filter_ne_of_free (searchHashMap_eq_none_iff.mp h)).symm
  · exact eraseP_eq_filter_ne k m.nodupKeys

theorem perm_delete (h : (k, v) ∈ m.items) :
    m.items.Perm ((k, v) :: (hashMapDelete m k).1.items) := by
  obtain ⟨before, after, hitems⟩ := append_of_mem h
  have hnd := m.nodupKeys
  -- neither the items before nor those after it have this key
  rw [hitems, map_append, map_cons, nodup_middle, nodup_cons, mem_append, not_or] at hnd
  rw [items_delete, hitems, filter_append, filter_cons, filter_ne_of_free hnd.1.1,
    filter_ne_of_free hnd.1.2]
  simp

theorem hashMapGet_delete (m : IcHashMap κ ν) (k k' : κ) :
    hashMapGet (hashMapDelete m k).1 k' = if k' = k then none else hashMapGet m k' := by
  by_cases hk : k' = k
  · subst hk
    rw [if_pos rfl, hashMapGet_eq_none_iff, items_delete]
    simp
  · rw [if_neg hk]
    apply Option.ext
    intro v
    rw [← mem_items_iff, ← mem_items_iff, items_delete]
    simp [hk]

theorem hashMapDelete_snd (m : IcHashMap κ ν) (k : κ) :
    (hashMapDelete m k).2 = (hashMapGet m k).isSome := by
  unfold hashMapDelete hashMapGet
  split <;> simp [*]

theorem items_delete_put (v : ν) (h : hashMapGet m k = none) :
    (hashMapDelete (hashMapPut m k v).1 k).1.items = m.items := by
  rw [items_delete, items_put_of_free v h, filter_append,
    filter_ne_of_free (hashMapGet_eq_none_iff.mp h)]
  simp

/-! ## Modification in place -/

theorem hashMapGet_modify (m : IcHashMap κ ν) (k : κ) (f : ν → ν) (k' : κ) :
    hashMapGet (hashMapModify m k f) k' =
      if k' = k then (hashMapGet m k').map f else hashMapGet m k' := by
  -- the keys stay, so the search stops at the same item
  have hfind : ((hashMapModify m k f).items.find? fun item => item.1 = k') =
      (m.items.find? fun item => item.1 = k').map
        fun item => if item.1 = k then (item.1, f item.2) else item := by
    simp only [hashMapModify, find?_map]
    congr 2
    funext item
    simp only [Function.comp]
    split <;> rfl
  unfold hashMapGet searchHashMap
  rw [hfind, Option.map_map, Option.map_map]
  cases h : m.items.find? fun item => item.1 = k' with
  | none => simp
  | some item =>
    have hkey : item.1 = k' := by simpa using find?_some h
    simp only [Option.map_some, Function.comp, hkey]
    split <;> rfl

theorem hashMapModify_id (m : IcHashMap κ ν) (k : κ) : hashMapModify m k (fun v => v) = m := by
  simp [hashMapModify]

theorem hashMapModify_of_eq {f : ν → ν} (h : hashMapGet m k = some v) (hf : f v = v) :
    hashMapModify m k f = m := by
  have hsame : ∀ item ∈ m.items, (if item.1 = k then (item.1, f item.2) else item) = item := by
    rintro ⟨k', w⟩ hmem
    split
    · rename_i hk
      have hget := mem_items_iff.mp hmem
      -- the item with the key holds the value that the lookup finds
      obtain rfl : v = w := Option.some.inj (h.symm.trans (hk ▸ hget))
      rw [hf]
    · rfl
  obtain ⟨items, count, hnd⟩ := m
  simp only [hashMapModify, IcHashMap.mk.injEq, and_true]
  exact (map_congr_left hsame).trans (map_id _)

theorem hashMapModify_modify (m : IcHashMap κ ν) (k : κ) (f g : ν → ν) :
    hashMapModify (hashMapModify m k f) k g = hashMapModify m k (g ∘ f) := by
  unfold hashMapModify
  congr 1
  rw [map_map]
  refine map_congr_left fun item _ => ?_
  by_cases hk : item.1 = k <;> simp [hk]

end ZilkerSdk.Types
