import Mathlib.Data.Finmap
import ZilkerSdk.Lib.Run
import ZilkerSdk.Types.HashMap.Iterator

/-!
# The hash map is a finite map

What `libs/types/c/src/icHashMap.c` is for: a finite map from keys to values, here
Mathlib's `Finmap`.  A put of a key that is there fails and changes nothing, and an
iteration visits each entry that was there at its start once, in an order that is
not specified, whatever it deletes on the way.

The counters of the source have 16 bits, so the map has to stay below 65536 entries.
-/

namespace ZilkerSdk.Types.HashMap

open Lib List

variable {ν : Type*}

/-! ## What a user does and sees -/

inductive Op (ν : Type*) where
  | put (key : MapKey) (value : Option ν)
  | get (key : MapKey)
  | contains (key : MapKey)
  | delete (key : MapKey)
  | count
  /-- A full iteration that deletes the visited entries whose key `del` accepts. -/
  | iterate (del : MapKey → Bool)

inductive Answer (ν : Type*) where
  | done (ok : Bool)
  | value (value : Option ν)
  | number (n : Nat)
  | visits (visits : List (Visit ν))

def step (map : IcHashMap ν) : Op ν → Option (IcHashMap ν × Answer ν)
  | .put key value =>
    let result := hashMapPut map key value
    some (result.1, .done result.2)
  | .get key => some (map, .value (hashMapGet map key))
  | .contains key => some (map, .done (hashMapContains map key))
  | .delete key =>
    let result := hashMapDelete map key
    some (result.1, .done result.2)
  | .count => some (map, .number (hashMapCount map))
  | .iterate del => (iterate del map).map fun result => (result.1, .visits result.2)

/-- A put leaves the map below 65536 entries. -/
def HasRoom (map : IcHashMap ν) : Op ν → Prop
  | .put key _ => hashMapContains map key = true ∨ (items map).length + 1 < 65536
  | _ => True

instance (map : IcHashMap ν) (op : Op ν) : Decidable (HasRoom map op) := by
  delta HasRoom
  split <;> infer_instance

/-! ## What an operation does -/

/-- What an operation answers and does to the items. -/
def Effect (map : IcHashMap ν) (op : Op ν) (answer : Answer ν) (map' : IcHashMap ν) : Prop :=
  match op with
  | .put key value =>
    (∃ item, searchHashMap map key = some item ∧ answer = .done false ∧ map' = map) ∨
    (searchHashMap map key = none ∧ (nodes map).length + 1 < 2 ^ 16 ∧ answer = .done true ∧
      (items map').Perm (⟨key, value⟩ :: items map))
  | .get key => answer = .value (hashMapGet map key) ∧ map' = map
  | .contains key => answer = .done (hashMapContains map key) ∧ map' = map
  | .delete key =>
    (searchHashMap map key = none ∧ answer = .done false ∧ map' = map) ∨
    (∃ n ∈ nodes map, n.item.key = key ∧ searchHashMap map key = some n.item ∧
      answer = .done true ∧ (nodes map).Perm (n :: nodes map'))
  | .count => answer = .number (hashMapCount map) ∧ map' = map
  | .iterate del =>
    answer = .visits ((nodes map).map (visitOf del)) ∧
      ∀ x, x ∈ nodes map' ↔ x ∈ nodes map ∧ del x.item.key = false

/-- Every operation with enough room has a meaning and keeps the map well formed. -/
theorem step_effect {map : IcHashMap ν} (h : WellFormed map) (op : Op ν) (hroom : HasRoom map op) :
    ∃ map' answer, step map op = some (map', answer) ∧ WellFormed map' ∧
      Effect map op answer map' := by
  cases op with
  | put key value =>
    cases hfound : searchHashMap map key with
    | some item =>
      refine ⟨map, .done false, ?_, h, .inl ⟨item, hfound, rfl, rfl⟩⟩
      rw [step, hashMapPut_of_taken hfound]
    | none =>
      -- the key is new, so the condition is about the number of entries
      have hlength : (nodes map).length + 1 < 2 ^ 16 := by
        obtain hcontains | hlength := hroom
        · rw [hashMapContains, hfound] at hcontains
          cases hcontains
        · rwa [items, length_map] at hlength
      obtain ⟨map', hput, hwf, hitems⟩ := hashMapPut_of_free h hfound hlength value
      refine ⟨map', .done true, ?_, hwf, .inr ⟨hfound, hlength, rfl, hitems⟩⟩
      rw [step, hput]
  | get | contains | count => exact ⟨map, _, rfl, h, rfl, rfl⟩
  | delete key =>
    cases hfound : searchHashMap map key with
    | none =>
      refine ⟨map, .done false, ?_, h, .inl ⟨hfound, rfl, rfl⟩⟩
      rw [step, hashMapDelete_of_free hfound]
    | some item =>
      obtain ⟨hitem, rfl⟩ := (searchHashMap_eq_some_iff h).mp hfound
      obtain ⟨n, hn, rfl⟩ := mem_items.mp hitem
      obtain ⟨map', hdelete, hwf, hnodes, -⟩ := hashMapDelete_of_mem h hn
      refine ⟨map', .done true, ?_, hwf, .inr ⟨n, hn, rfl, hfound, rfl, hnodes⟩⟩
      rw [step, hdelete]
  | iterate del =>
    obtain ⟨map', hiterate, hwf, hnodes⟩ := iterate_spec del h
    exact ⟨map', _, by rw [step, hiterate]; rfl, hwf, rfl, hnodes⟩

/-! ## The finite map -/

abbrev FiniteMap (ν : Type*) := Finmap fun _ : MapKey => Option ν

def MapItem.entry (item : MapItem ν) : Sigma fun _ : MapKey => Option ν := ⟨item.key, item.value⟩

/-- The answers a finite map gives, and the map afterwards. -/
def SpecStep (m : FiniteMap ν) (op : Op ν) (answer : Answer ν) (m' : FiniteMap ν) : Prop :=
  match op with
  | .put key value =>
    (key ∈ m ∧ answer = .done false ∧ m' = m) ∨
    (key ∉ m ∧ answer = .done true ∧ m' = m.insert key value)
  -- the source answers NULL both for no entry and for an entry with the value NULL
  | .get key => answer = .value (m.lookup key).join ∧ m' = m
  | .contains key => answer = .done (decide (key ∈ m)) ∧ m' = m
  | .delete key => answer = .done (decide (key ∈ m)) ∧ m' = m.erase key
  | .count => answer = .number m.keys.card ∧ m' = m
  | .iterate del =>
    ∃ visits : List (Visit ν), answer = .visits visits ∧
      -- as multisets: each entry once
      (visits.map fun visit => visit.item.entry : Multiset _) = m.entries ∧
      (∀ visit ∈ visits, visit.deleted = if del visit.item.key then some true else none) ∧
      ∀ key, m'.lookup key = if del key then none else m.lookup key

theorem erase_of_not_mem {m : FiniteMap ν} {key : MapKey} (h : key ∉ m) : m.erase key = m := by
  apply Finmap.ext_lookup
  intro key'
  by_cases hkey : key' = key
  · rw [hkey, Finmap.lookup_erase, Finmap.lookup_eq_none.mpr h]
  · exact Finmap.lookup_erase_ne hkey

/-- The entries of the finite map are the items of the hash map. -/
structure Represents (map : IcHashMap ν) (m : FiniteMap ν) : Prop where
  wellFormed : WellFormed map
  lookup_iff : ∀ key value, m.lookup key = some value ↔ ⟨key, value⟩ ∈ items map

theorem represents_create (seed : UInt32) : Represents (hashMapCreate seed : IcHashMap ν) ∅ where
  wellFormed := wellFormed_create seed
  lookup_iff key value := by
    have hitems : items (hashMapCreate seed : IcHashMap ν) = [] :=
      map_eq_nil_iff.mpr (flatMap_eq_nil_iff.mpr fun _ _ => rfl)
    simp [hitems]

section Represents

variable {map map' : IcHashMap ν} {m : FiniteMap ν}

section

variable (h : Represents map m)
include h

theorem Represents.lookup_eq (key : MapKey) :
    m.lookup key = (searchHashMap map key).map MapItem.value := by
  apply Option.ext
  intro value
  rw [h.lookup_iff, Option.map_eq_some_iff]
  constructor
  · intro hitem
    exact ⟨_, (searchHashMap_eq_some_iff h.wellFormed).mpr ⟨hitem, rfl⟩, rfl⟩
  · rintro ⟨item, hfound, rfl⟩
    obtain ⟨hitem, rfl⟩ := (searchHashMap_eq_some_iff h.wellFormed).mp hfound
    exact hitem

theorem Represents.mem_iff (key : MapKey) : key ∈ m ↔ (searchHashMap map key).isSome = true := by
  rw [← Finmap.lookup_isSome, h.lookup_eq, Option.isSome_map]

theorem Represents.decide_mem (key : MapKey) :
    decide (key ∈ m) = (searchHashMap map key).isSome := by
  rw [Bool.eq_iff_iff, decide_eq_true_iff]
  exact h.mem_iff key

theorem Represents.entries_eq : m.entries = ((items map).map MapItem.entry : Multiset _) := by
  have hnodup : ((items map).map MapItem.entry).Nodup := by
    apply List.Nodup.of_map Sigma.fst
    rw [map_map]
    exact h.wellFormed.keys
  rw [Multiset.Nodup.ext m.nodup_entries (Multiset.coe_nodup.mpr hnodup)]
  rintro ⟨key, value⟩
  rw [← Finmap.lookup_eq_some_iff, Multiset.mem_coe, mem_map, h.lookup_iff]
  constructor
  · intro hitem
    exact ⟨_, hitem, rfl⟩
  · rintro ⟨item, hitem, hentry⟩
    cases hentry
    exact hitem

theorem Represents.count_eq : hashMapCount map = m.keys.card := by
  have hcard : m.keys.card = m.entries.card := Multiset.card_map Sigma.fst m.entries
  rw [hcard, h.entries_eq, Multiset.coe_card, length_map, items, length_map]
  exact h.wellFormed.count_eq

end

theorem exists_represents (h : WellFormed map) : ∃ m, Represents map m := by
  have hnodup : ((items map).map MapItem.entry).NodupKeys := by
    rw [List.NodupKeys, keys, map_map]
    exact h.keys
  refine ⟨⟨_, Multiset.coe_nodupKeys.mpr hnodup⟩, h, fun key value => ?_⟩
  refine Finmap.lookup_eq_some_iff.trans ?_
  rw [Multiset.mem_coe, mem_map]
  constructor
  · rintro ⟨item, hitem, hentry⟩
    cases hentry
    exact hitem
  · intro hitem
    exact ⟨_, hitem, rfl⟩

/-! ## One operation on the finite map -/

variable (h : Represents map m)
include h

theorem Represents.put {key : MapKey} (value : Option ν)
    (hfree : searchHashMap map key = none) (hwf : WellFormed map')
    (hitems : (items map').Perm (⟨key, value⟩ :: items map)) :
    Represents map' (m.insert key value) := by
  refine ⟨hwf, fun key' value' => ?_⟩
  rw [hitems.mem_iff, mem_cons, MapItem.mk.injEq, ← h.lookup_iff]
  by_cases hkey : key' = key
  · subst hkey
    rw [Finmap.lookup_insert, h.lookup_eq, hfree]
    simp [eq_comm]
  · simp [hkey]

theorem Represents.delete {n : ListNode (MapItem ν)} (hwf : WellFormed map')
    (hnodes : (nodes map).Perm (n :: nodes map')) :
    Represents map' (m.erase n.item.key) := by
  refine ⟨hwf, fun key value => ?_⟩
  have hitems : (items map).Perm (n.item :: items map') := hnodes.map ListNode.item
  by_cases hkey : key = n.item.key
  · subst hkey
    -- no other item has this key
    have hkeys := (hitems.map MapItem.key).nodup_iff.mp h.wellFormed.keys
    refine iff_of_false (by simp) fun hitem => (nodup_cons.mp hkeys).1 ?_
    exact mem_map.mpr ⟨_, hitem, rfl⟩
  · rw [Finmap.lookup_erase_ne hkey, h.lookup_iff, hitems.mem_iff, mem_cons]
    have hne : (⟨key, value⟩ : MapItem ν) ≠ n.item := fun e => hkey (congrArg MapItem.key e)
    simp [hne]

theorem Represents.iterate (del : MapKey → Bool) (hwf : WellFormed map')
    (hnodes : ∀ x, x ∈ nodes map' ↔ x ∈ nodes map ∧ del x.item.key = false) :
    ∃ m', Represents map' m' ∧ ∀ key, m'.lookup key = if del key then none else m.lookup key := by
  obtain ⟨m', hm'⟩ := exists_represents hwf
  refine ⟨m', hm', fun key => ?_⟩
  apply Option.ext
  intro value
  rw [hm'.lookup_iff, mem_items]
  by_cases hdel : del key = true
  · rw [if_pos hdel]
    refine iff_of_false ?_ (by simp)
    rintro ⟨n, hn, hitem⟩
    have hkept := ((hnodes n).mp hn).2
    rw [hitem, hdel] at hkept
    cases hkept
  · rw [if_neg hdel, h.lookup_iff, mem_items]
    refine exists_congr fun n => ?_
    rw [hnodes, and_assoc]
    refine and_congr_right fun _ => and_iff_right_of_imp fun hitem => ?_
    rw [hitem]
    exact Bool.not_eq_true _ ▸ hdel

end Represents

/-- Every operation gives an answer of the finite map and keeps representing it. -/
theorem step_represents {map : IcHashMap ν} {m : FiniteMap ν} (op : Op ν) (h : Represents map m)
    (hroom : HasRoom map op) :
    ∃ map' answer m', step map op = some (map', answer) ∧ SpecStep m op answer m' ∧
      Represents map' m' := by
  obtain ⟨map', answer, hstep, hwf, heffect⟩ := step_effect h.wellFormed op hroom
  refine ⟨map', answer, ?_⟩
  cases op with
  | put key value =>
    obtain ⟨item, hfound, rfl, rfl⟩ | ⟨hfree, -, rfl, hitems⟩ := heffect
    · have hmem : key ∈ m := by rw [h.mem_iff, hfound]; rfl
      exact ⟨m, hstep, .inl ⟨hmem, rfl, rfl⟩, h⟩
    · have hmem : key ∉ m := by rw [h.mem_iff, hfree]; exact Bool.false_ne_true
      exact ⟨_, hstep, .inr ⟨hmem, rfl, rfl⟩, h.put value hfree hwf hitems⟩
  | get key =>
    obtain ⟨rfl, rfl⟩ := heffect
    refine ⟨m, hstep, ⟨?_, rfl⟩, h⟩
    rw [h.lookup_eq, hashMapGet]
    cases searchHashMap map' key with
    | none | some => rfl
  | contains key =>
    obtain ⟨rfl, rfl⟩ := heffect
    exact ⟨m, hstep, ⟨by rw [h.decide_mem]; rfl, rfl⟩, h⟩
  | delete key =>
    obtain ⟨hfree, rfl, rfl⟩ | ⟨n, hn, rfl, hfound, rfl, hnodes⟩ := heffect
    · have hmem : key ∉ m := by rw [h.mem_iff, hfree]; exact Bool.false_ne_true
      exact ⟨m, hstep, ⟨by rw [h.decide_mem, hfree]; rfl, (erase_of_not_mem hmem).symm⟩, h⟩
    · exact ⟨_, hstep, ⟨by rw [h.decide_mem, hfound]; rfl, rfl⟩, h.delete hwf hnodes⟩
  | count =>
    obtain ⟨rfl, rfl⟩ := heffect
    exact ⟨m, hstep, ⟨by rw [h.count_eq], rfl⟩, h⟩
  | iterate del =>
    obtain ⟨rfl, hnodes⟩ := heffect
    obtain ⟨m', hm', hlookup⟩ := h.iterate del hwf hnodes
    refine ⟨m', hstep, ⟨_, rfl, ?_, ?_, hlookup⟩, hm'⟩
    · rw [h.entries_eq, items, map_map, map_map]
      rfl
    · intro visit hvisit
      obtain ⟨n, -, rfl⟩ := mem_map.mp hvisit
      rfl

/-! ## Every run -/

/-- Every sequence of operations that leaves the map below 65536 entries has a meaning, and gets
answers of a finite map. -/
theorem hashMap_refines_finiteMap (seed : UInt32) (ops : List (Op ν))
    (hroom : Guarded step HasRoom (hashMapCreate seed) ops) :
    ∃ map answers m, run step (hashMapCreate seed) ops = some (map, answers) ∧
      Traces SpecStep (∅ : FiniteMap ν) ops answers m ∧ Represents map m :=
  run_simulates (fun _ _ op h hop => step_represents op h hop) (represents_create seed) hroom

def byteKey (b : UInt8) : MapKey := ⟨[b], by simp⟩

/-- Two keys in one bucket, a put of a key that is there, and an iteration that deletes one. -/
theorem hashMap_refines_finiteMap_collision :
    ∃ map answers m,
      run step (hashMapCreate 7) [.put (byteKey 0) (some 1), .put (byteKey 31) none,
        .put (byteKey 0) (some 2), .iterate fun key => key = byteKey 0, .count] =
          some (map, answers) ∧
      Traces SpecStep (∅ : FiniteMap Nat) [.put (byteKey 0) (some 1), .put (byteKey 31) none,
        .put (byteKey 0) (some 2), .iterate fun key => key = byteKey 0, .count] answers m ∧
      Represents map m :=
  hashMap_refines_finiteMap 7 _ (by decide +kernel)

end ZilkerSdk.Types.HashMap
