import ZilkerSdk.Types.HashMap
import ZilkerSdk.Types.HashMap.Refinement

/-!
# The hash map as its users see it

The models of the users of the hash map are about the map of `Types.HashMap`, a
list of items without buckets.  Here the two levels are connected: whatever a run
of the map with its buckets answers, the list of items answers as well, with an
iteration in some order.
-/

namespace ZilkerSdk.Types.HashMap

open Lib List

variable {ν : Type*}

/-- The map of `Types.HashMap` for the keys of the hash map. -/
abbrev ListMap (ν : Type*) := Types.IcHashMap MapKey (Option ν)

def MapItem.pair (item : MapItem ν) : MapKey × Option ν := (item.key, item.value)

/-- The answers of the list, and the list afterwards. -/
def ListStep (l : ListMap ν) (op : Op ν) (answer : Answer ν) (l' : ListMap ν) : Prop :=
  match op with
  | .put key value =>
    answer = .done (Types.hashMapPut l key value).2 ∧ l' = (Types.hashMapPut l key value).1
  | .get key => answer = .value (Types.hashMapGet l key).join ∧ l' = l
  | .contains key => answer = .done (Types.hashMapContains l key) ∧ l' = l
  | .delete key => answer = .done (Types.hashMapDelete l key).2 ∧ l' = (Types.hashMapDelete l key).1
  | .count => answer = .number (Types.hashMapCount l) ∧ l' = l
  | .iterate del =>
    ∃ visits : List (Visit ν), answer = .visits visits ∧
      (visits.map fun visit => visit.item.pair).Perm l.items ∧
      l'.items = l.items.filter fun item => !del item.1

/-- The list holds the items of the buckets and counts them. -/
structure Agrees (map : IcHashMap ν) (l : ListMap ν) : Prop where
  wellFormed : WellFormed map
  items_perm : l.items.Perm ((items map).map MapItem.pair)
  count_eq : l.count = l.items.length

theorem agrees_create (seed : UInt32) :
    Agrees (hashMapCreate seed : IcHashMap ν) Types.hashMapCreate where
  wellFormed := wellFormed_create seed
  items_perm := by
    exact List.Perm.nil
  count_eq := rfl

section Agrees

variable {map map' : IcHashMap ν} {l : ListMap ν}

variable (h : Agrees map l)
include h

theorem Agrees.length_eq : l.items.length = (nodes map).length := by
  rw [h.items_perm.length_eq, length_map, items, length_map]

theorem Agrees.get_eq (key : MapKey) :
    Types.hashMapGet l key = (searchHashMap map key).map MapItem.value := by
  apply Option.ext
  intro value
  rw [← Types.mem_items_iff, h.items_perm.mem_iff, mem_map, Option.map_eq_some_iff]
  constructor
  · rintro ⟨item, hitem, hpair⟩
    cases hpair
    exact ⟨item, (searchHashMap_eq_some_iff h.wellFormed).mpr ⟨hitem, rfl⟩, rfl⟩
  · rintro ⟨item, hfound, rfl⟩
    obtain ⟨hitem, rfl⟩ := (searchHashMap_eq_some_iff h.wellFormed).mp hfound
    exact ⟨item, hitem, rfl⟩

theorem Agrees.put {key : MapKey} (value : Option ν)
    (hfree : Types.hashMapGet l key = none) (hroom : (nodes map).length + 1 < 2 ^ 16)
    (hwf : WellFormed map') (hitems : (items map').Perm (⟨key, value⟩ :: items map)) :
    Agrees map' (Types.hashMapPut l key value).1 := by
  have hlist := Types.items_put_of_free value hfree
  refine ⟨hwf, ?_, ?_⟩
  · rw [hlist]
    refine (perm_append_singleton _ _).trans ?_
    exact (h.items_perm.cons (key, value)).trans (hitems.map MapItem.pair).symm
  · have hcount : (Types.hashMapPut l key value).1.count = (l.count + 1) % 2 ^ 16 := by
      rw [Types.hashMapGet, Option.map_eq_none_iff] at hfree
      unfold Types.hashMapPut
      split
      · rename_i item hfound
        rw [hfree] at hfound
        cases hfound
      · rfl
    rw [hcount, hlist, length_append, length_singleton, h.count_eq, h.length_eq,
      Nat.mod_eq_of_lt hroom]

theorem Agrees.delete {n : ListNode (MapItem ν)} (hn : n ∈ nodes map)
    (hwf : WellFormed map') (hnodes : (nodes map).Perm (n :: nodes map')) :
    Agrees map' (Types.hashMapDelete l n.item.key).1 := by
  have hitems : (items map).Perm (n.item :: items map') := hnodes.map ListNode.item
  have hmem : (n.item.key, n.item.value) ∈ l.items := by
    rw [h.items_perm.mem_iff]
    exact mem_map.mpr ⟨n.item, mem_items.mpr ⟨n, hn, rfl⟩, rfl⟩
  have hperm := Types.perm_delete hmem
  refine ⟨hwf, ?_, ?_⟩
  · exact (hperm.symm.trans (h.items_perm.trans (hitems.map MapItem.pair))).cons_inv
  · have hcount : (Types.hashMapDelete l n.item.key).1.count = l.count - 1 := by
      have hget := Types.mem_items_iff.mp hmem
      obtain ⟨item, hfound, -⟩ := Option.map_eq_some_iff.mp hget
      rw [Types.hashMapDelete, hfound]
    rw [hcount, h.count_eq, hperm.length_eq, length_cons, Nat.add_sub_cancel]

theorem Agrees.iterate (del : MapKey → Bool) (hwf : WellFormed map')
    (hnodes : ∀ x, x ∈ nodes map' ↔ x ∈ nodes map ∧ del x.item.key = false) :
    ∃ l', Agrees map' l' ∧ l'.items = l.items.filter fun item => !del item.1 := by
  have hnodup : ((l.items.filter fun item => !del item.1).map Prod.fst).Nodup :=
    l.nodupKeys.sublist (filter_sublist.map Prod.fst)
  refine ⟨⟨_, (l.items.filter fun item => !del item.1).length, hnodup⟩, ⟨hwf, ?_, rfl⟩, rfl⟩
  have hpairs : ((items map').map MapItem.pair).Nodup := by
    apply List.Nodup.of_map Prod.fst
    rw [map_map]
    exact hwf.keys
  rw [perm_ext_iff_of_nodup (hnodup.of_map _) hpairs]
  intro pair
  simp only [mem_filter, h.items_perm.mem_iff, mem_map, mem_items, Bool.not_eq_true']
  constructor
  · rintro ⟨⟨item, ⟨n, hn, rfl⟩, rfl⟩, hkept⟩
    exact ⟨n.item, ⟨n, (hnodes n).mpr ⟨hn, hkept⟩, rfl⟩, rfl⟩
  · rintro ⟨item, ⟨n, hn, rfl⟩, rfl⟩
    obtain ⟨hn', hkept⟩ := (hnodes n).mp hn
    exact ⟨⟨n.item, ⟨n, hn', rfl⟩, rfl⟩, hkept⟩

end Agrees

/-- One operation on the buckets is one on the list. -/
theorem step_agrees {map : IcHashMap ν} {l : ListMap ν} (op : Op ν) (h : Agrees map l)
    (hroom : HasRoom map op) :
    ∃ map' answer l', step map op = some (map', answer) ∧ ListStep l op answer l' ∧
      Agrees map' l' := by
  obtain ⟨map', answer, hstep, hwf, heffect⟩ := step_effect h.wellFormed op hroom
  refine ⟨map', answer, ?_⟩
  cases op with
  | put key value =>
    obtain ⟨item, hfound, rfl, rfl⟩ | ⟨hfree, hlength, rfl, hitems⟩ := heffect
    · have hget : Types.hashMapGet l key = some item.value := by rw [h.get_eq, hfound]; rfl
      refine ⟨l, hstep, ?_, h⟩
      -- both refuse a key that is taken
      rw [ListStep, Types.hashMapPut_of_taken hget]
      exact ⟨rfl, rfl⟩
    · have hget : Types.hashMapGet l key = none := by rw [h.get_eq, hfree]; rfl
      refine ⟨_, hstep, ⟨?_, rfl⟩, h.put value hget hlength hwf hitems⟩
      rw [(Types.hashMapPut_snd l key value).mpr hget]
  | get key =>
    obtain ⟨rfl, rfl⟩ := heffect
    refine ⟨l, hstep, ⟨?_, rfl⟩, h⟩
    rw [h.get_eq, hashMapGet]
    cases searchHashMap map' key with
    | none | some => rfl
  | contains key =>
    obtain ⟨rfl, rfl⟩ := heffect
    refine ⟨l, hstep, ⟨?_, rfl⟩, h⟩
    rw [Types.hashMapContains_eq, h.get_eq, Option.isSome_map, hashMapContains]
  | delete key =>
    have hanswer : (Types.hashMapDelete l key).2 = (searchHashMap map key).isSome := by
      rw [Types.hashMapDelete_snd, h.get_eq, Option.isSome_map]
    obtain ⟨hfree, rfl, rfl⟩ | ⟨n, hn, rfl, hfound, rfl, hnodes⟩ := heffect
    · have hget : Types.hashMapGet l key = none := by rw [h.get_eq, hfree]; rfl
      rw [Types.hashMapGet, Option.map_eq_none_iff] at hget
      refine ⟨l, hstep, ?_, h⟩
      rw [ListStep, Types.hashMapDelete, hget]
      exact ⟨rfl, rfl⟩
    · refine ⟨_, hstep, ⟨?_, rfl⟩, h.delete hn hwf hnodes⟩
      rw [hanswer, hfound]
      rfl
  | count =>
    obtain ⟨rfl, rfl⟩ := heffect
    refine ⟨l, hstep, ⟨?_, rfl⟩, h⟩
    rw [Types.hashMapCount, hashMapCount, h.count_eq, h.length_eq, h.wellFormed.count_eq]
  | iterate del =>
    obtain ⟨rfl, hnodes⟩ := heffect
    obtain ⟨l', hl', hfilter⟩ := h.iterate del hwf hnodes
    refine ⟨l', hstep, ⟨_, rfl, ?_, hfilter⟩, hl'⟩
    -- the orders differ, so the visits agree up to a permutation
    have hpairs : ((nodes map).map (visitOf del)).map (fun visit => visit.item.pair) =
        (items map).map MapItem.pair := by
      rw [items, map_map, map_map]
      rfl
    rw [hpairs]
    exact h.items_perm.symm

/-- Every sequence of operations that leaves the map below 65536 entries gets from the buckets the
answers of the list. -/
theorem run_agrees (seed : UInt32) (ops : List (Op ν))
    (hroom : Guarded step HasRoom (hashMapCreate seed) ops) :
    ∃ map answers l, run step (hashMapCreate seed) ops = some (map, answers) ∧
      Traces ListStep (Types.hashMapCreate : ListMap ν) ops answers l ∧ Agrees map l :=
  run_simulates (fun _ _ op h hop => step_agrees op h hop) (agrees_create seed) hroom

/-- Two keys in one bucket, of which one is deleted, and an iteration that deletes a third key. -/
def collidingKeys : List (Op Nat) :=
  [.put (byteKey 0) (some 1), .put (byteKey 31) (some 2), .put (byteKey 5) none,
    .delete (byteKey 0), .contains (byteKey 31), .iterate fun key => key = byteKey 5, .count]

theorem run_agrees_collidingKeys :
    ∃ map answers l, run step (hashMapCreate 7) collidingKeys = some (map, answers) ∧
      Traces ListStep (Types.hashMapCreate : ListMap Nat) collidingKeys answers l ∧ Agrees map l :=
  run_agrees 7 _ (by decide +kernel)

end ZilkerSdk.Types.HashMap
