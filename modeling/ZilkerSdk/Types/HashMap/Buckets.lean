import Mathlib.Data.List.Perm.Basic
import ZilkerSdk.Lib.Chains
import ZilkerSdk.Types.LinkedList

/-!
# The buckets of the hash map

Model of `libs/types/c/src/icHashMap.c` as it is: 31 buckets, each NULL until
something appears in it and a linked list from then on, chosen by a hash of the
bytes of the key that starts with the seed of the map.  Neither the map nor a key
is NULL here; a value may be (`none`).

The memory of the items is not modelled, only which of them are alive: `hashMapPut`
allocates an item together with its list node and `hashMapDelete` frees both, so
one number stands for the two allocations.
-/

namespace ZilkerSdk.Types.HashMap

open Lib List Function

/-! ## Keys -/

/-- A key: the `keyLen` bytes at `key`, where `keyLen` is a `uint16_t`. -/
structure MapKey where
  bytes : List UInt8
  length_lt : bytes.length < 2 ^ 16
deriving DecidableEq

def MapKey.keyLen (k : MapKey) : Nat := k.bytes.length

/-- `memcmp` of the first `n` bytes: the difference where they differ for the first time. -/
def memcmp : List UInt8 → List UInt8 → Nat → Int
  | x :: xs, y :: ys, n + 1 => if x = y then memcmp xs ys n else (x.toNat : Int) - y.toNat
  | _, _, _ => 0

theorem memcmp_eq_zero_iff {xs ys : List UInt8} (h : xs.length = ys.length) :
    memcmp xs ys ys.length = 0 ↔ xs = ys := by
  induction xs generalizing ys with
  | nil =>
    rw [length_nil, eq_comm, length_eq_zero_iff] at h
    simp [h, memcmp]
  | cons x xs ih =>
    obtain ⟨y, ys, rfl⟩ : ∃ y ys', ys = y :: ys' := exists_cons_of_length_eq_add_one h.symm
    rw [length_cons, memcmp, cons.injEq]
    split
    · rename_i hxy
      rw [ih (Nat.succ.inj h)]
      simp [hxy]
    · rename_i hxy
      -- bytes that differ have a difference that is not zero
      have hne : x.toNat ≠ y.toNat := fun e => hxy (UInt8.toNat.inj e)
      simp only [hxy, false_and, iff_false]
      omega

/-- `defaultHash`: 33 times the hash so far and the next byte, in 32 bits. -/
def defaultHash (key : MapKey) (seed : UInt32) : UInt32 :=
  key.bytes.foldl (fun hash byte => hash * 33 + byte.toUInt32) seed

abbrev numBuckets : Nat := 31

def assignedBucket (hash : UInt32) : Fin numBuckets :=
  ⟨hash.toNat % numBuckets, Nat.mod_lt _ (by decide)⟩

/-! ## The map -/

variable {ν : Type*}

structure MapItem (ν : Type*) where
  key : MapKey
  value : Option ν

/-- `struct _icHashMap`.  `allocated` counts the items that were ever allocated. -/
structure IcHashMap (ν : Type*) where
  count : Nat
  seed : UInt32
  buckets : Fin numBuckets → Option (IcLinkedList (MapItem ν))
  allocated : Nat

/-- An empty map; the seed comes from the clock. -/
def hashMapCreate (seed : UInt32) : IcHashMap ν := ⟨0, seed, fun _ => none, 0⟩

/-- The bucket of a key. -/
def bucketOf (map : IcHashMap ν) (key : MapKey) : Fin numBuckets :=
  assignedBucket (defaultHash key map.seed)

/-- Compare the lengths first, then the bytes. -/
def searchLinkedList (key : MapKey) (item : MapItem ν) : Bool :=
  if item.key.keyLen ≠ key.keyLen then false
  else if memcmp key.bytes item.key.bytes item.key.keyLen = 0 then true
  else false

/-- The item with the key in the list of the bucket; `linkedListFind` of NULL is NULL. -/
def searchBucket (map : IcHashMap ν) (bucket : Fin numBuckets) (key : MapKey) :
    Option (MapItem ν) :=
  match map.buckets bucket with
  | none => none
  | some values => linkedListFind values (searchLinkedList key)

def searchHashMap (map : IcHashMap ν) (key : MapKey) : Option (MapItem ν) :=
  match map.buckets (bucketOf map key) with
  | none => none
  | some _ => searchBucket map (bucketOf map key) key

/-- NULL stands for "not there" and for a value that is NULL. -/
def hashMapGet (map : IcHashMap ν) (key : MapKey) : Option ν :=
  match searchHashMap map key with
  | none => none
  | some item => item.value

def hashMapContains (map : IcHashMap ν) (key : MapKey) : Bool := (searchHashMap map key).isSome

def hashMapCount (map : IcHashMap ν) : Nat := map.count

/-- Append a new item to the list of a bucket. -/
def addItem (map : IcHashMap ν) (b : Fin numBuckets) (values : IcLinkedList (MapItem ν))
    (item : MapItem ν) : IcHashMap ν :=
  { map with
    count := (map.count + 1) % 2 ^ 16
    buckets := Function.update map.buckets b (some (linkedListAppend values map.allocated item))
    allocated := map.allocated + 1 }

/-- Add the key unless it is there; the result tells whether it was added. -/
def hashMapPut (map : IcHashMap ν) (key : MapKey) (value : Option ν) : IcHashMap ν × Bool :=
  let b := bucketOf map key
  match map.buckets b with
  -- no list for this bucket yet
  | none => (addItem map b linkedListCreate ⟨key, value⟩, true)
  | some values =>
    match searchBucket map b key with
    | some _ => (map, false)
    | none => (addItem map b values ⟨key, value⟩, true)

/-- Take the item of a key out of the list of its bucket, which stays even if it is empty. -/
def removeItem (map : IcHashMap ν) (b : Fin numBuckets) (values : IcLinkedList (MapItem ν))
    (key : MapKey) : IcHashMap ν :=
  { map with
    count := map.count - 1
    buckets := Function.update map.buckets b
      (some (linkedListDelete values (searchLinkedList key)).1) }

/-- Delete the key; the result tells whether it was there. -/
def hashMapDelete (map : IcHashMap ν) (key : MapKey) : IcHashMap ν × Bool :=
  let b := bucketOf map key
  match map.buckets b with
  | none => (map, false)
  | some values =>
    match searchBucket map b key with
    | none => (map, false)
    | some _ => (removeItem map b values key, true)

/-! ## Chains -/

/-- The nodes in a bucket. -/
def chain (map : IcHashMap ν) (b : Fin numBuckets) : List (ListNode (MapItem ν)) :=
  match map.buckets b with
  | none => []
  | some values => values.nodes

/-- All nodes of the map, bucket by bucket. -/
def nodes (map : IcHashMap ν) : List (ListNode (MapItem ν)) := entries (chain map)

/-- The items of the map, bucket by bucket. -/
def items (map : IcHashMap ν) : List (MapItem ν) := (nodes map).map ListNode.item

variable {map map' : IcHashMap ν} {b : Fin numBuckets} {values : IcLinkedList (MapItem ν)}
  {n : ListNode (MapItem ν)} {item : MapItem ν} {key : MapKey}

theorem chain_of_some (h : map.buckets b = some values) : chain map b = values.nodes := by
  rw [chain, h]

theorem chain_of_none (h : map.buckets b = none) : chain map b = [] := by
  rw [chain, h]

theorem mem_nodes :
    n ∈ nodes map ↔ ∃ b, n ∈ chain map b := mem_entries

theorem mem_items :
    item ∈ items map ↔ ∃ n ∈ nodes map, n.item = item := mem_map

theorem chain_update (map : IcHashMap ν) (b : Fin numBuckets) (values : IcLinkedList (MapItem ν))
    (h : map'.buckets = update map.buckets b (some values)) :
    chain map' = update (chain map) b values.nodes := by
  funext b'
  rw [chain, h]
  by_cases hb : b' = b
  · subst hb
    rw [update_self, update_self]
  · rw [update_of_ne hb, update_of_ne hb, chain]

/-! ## Well-formed maps -/

/-- What put and delete keep: a node is in the bucket of its key, no two items have the same key,
no two nodes are the same allocation, and the counters count. -/
structure WellFormed (map : IcHashMap ν) : Prop where
  slot : ∀ b, ∀ n ∈ chain map b, bucketOf map n.item.key = b
  keys : ((items map).map MapItem.key).Nodup
  alive : ((nodes map).map ListNode.node).Nodup
  old : ∀ n ∈ nodes map, n.node < map.allocated
  sizes : ∀ b values, map.buckets b = some values → values.Counted
  count_eq : map.count = (nodes map).length
  length_lt : (nodes map).length < 2 ^ 16

theorem wellFormed_create (seed : UInt32) : WellFormed (hashMapCreate seed : IcHashMap ν) := by
  have hnodes : nodes (hashMapCreate seed : IcHashMap ν) = [] :=
    flatMap_eq_nil_iff.mpr fun _ _ => rfl
  exact
    { slot := fun _ _ hn => absurd hn not_mem_nil
      keys := by rw [items, hnodes]; exact nodup_nil
      alive := by rw [hnodes]; exact nodup_nil
      old := fun n hn => absurd (hnodes ▸ hn) not_mem_nil
      sizes := fun _ _ h => absurd h (by simp [hashMapCreate])
      count_eq := by rw [hnodes]; rfl
      length_lt := by rw [hnodes]; exact Nat.two_pow_pos 16 }

section

variable (h : WellFormed map)
include h

theorem WellFormed.eq_of_key {n' : ListNode (MapItem ν)} (hn : n ∈ nodes map)
    (hn' : n' ∈ nodes map) (hkey : n.item.key = n'.item.key) : n = n' := by
  have hkeys := h.keys
  rw [items, map_map] at hkeys
  exact inj_on_of_nodup_map hkeys hn hn' hkey

theorem WellFormed.mem_chain (hn : n ∈ nodes map) :
    n ∈ chain map (bucketOf map n.item.key) := by
  obtain ⟨b, hb⟩ := mem_nodes.mp hn
  rwa [h.slot b n hb]

/-- Where one bucket gets another list, its nodes have to belong there and its size has to be
right. -/
theorem WellFormed.slot_update {l : List (ListNode (MapItem ν))}
    (hchain : chain map' = update (chain map) b l) (hseed : map'.seed = map.seed)
    (hl : ∀ n ∈ l, bucketOf map n.item.key = b) :
    ∀ b', ∀ n ∈ chain map' b', bucketOf map' n.item.key = b' := by
  intro b' n hn
  rw [bucketOf, hseed]
  rw [hchain] at hn
  by_cases hb : b' = b
  · subst hb
    rw [update_self] at hn
    exact hl n hn
  · rw [update_of_ne hb] at hn
    exact h.slot b' n hn

theorem WellFormed.sizes_update
    (hbuckets : map'.buckets = update map.buckets b (some values))
    (hvalues : values.Counted) :
    ∀ b' values', map'.buckets b' = some values' → values'.Counted := by
  intro b' values' hb'
  rw [hbuckets] at hb'
  by_cases hb : b' = b
  · subst hb
    rw [update_self] at hb'
    exact Option.some.inj hb' ▸ hvalues
  · rw [update_of_ne hb] at hb'
    exact h.sizes b' values' hb'

end

/-! ## Searching -/

@[simp] theorem searchLinkedList_eq_true_iff :
    searchLinkedList key item = true ↔ item.key = key := by
  unfold searchLinkedList MapKey.keyLen
  split
  · rename_i hlen
    refine iff_of_false (by simp) fun e => hlen (by rw [e])
  · rename_i hlen
    rw [Ne, Decidable.not_not] at hlen
    obtain ⟨bytes, hbytes⟩ := key
    obtain ⟨⟨bytes', hbytes'⟩, value⟩ := item
    simp [memcmp_eq_zero_iff hlen.symm, eq_comm]

theorem searchHashMap_eq (map : IcHashMap ν) (key : MapKey) :
    searchHashMap map key =
      ((chain map (bucketOf map key)).find? fun n => searchLinkedList key n.item).map
        ListNode.item := by
  unfold searchHashMap searchBucket chain
  cases map.buckets (bucketOf map key) with
  | none | some => rfl

/-- A search finds exactly the item with the key. -/
theorem searchHashMap_eq_some_iff (h : WellFormed map) :
    searchHashMap map key = some item ↔ item ∈ items map ∧ item.key = key := by
  rw [searchHashMap_eq, Option.map_eq_some_iff]
  constructor
  · rintro ⟨n, hfind, rfl⟩
    have hmem := mem_of_find?_eq_some hfind
    have hkey : n.item.key = key := by simpa using find?_some hfind
    exact ⟨mem_items.mpr ⟨n, mem_nodes.mpr ⟨_, hmem⟩, rfl⟩, hkey⟩
  · rintro ⟨hitem, rfl⟩
    obtain ⟨n, hn, rfl⟩ := mem_items.mp hitem
    have hfound : ((chain map (bucketOf map n.item.key)).find? fun x =>
        searchLinkedList n.item.key x.item).isSome := by
      rw [find?_isSome]
      exact ⟨n, h.mem_chain hn, searchLinkedList_eq_true_iff.mpr rfl⟩
    obtain ⟨n', hn'⟩ := Option.isSome_iff_exists.mp hfound
    -- whatever was found has the key, so it is the node
    have hkey : n'.item.key = n.item.key := by simpa using find?_some hn'
    have hmem := mem_nodes.mpr ⟨_, mem_of_find?_eq_some hn'⟩
    exact ⟨n', hn', by rw [h.eq_of_key hmem hn hkey]⟩

theorem searchHashMap_eq_none_iff (h : WellFormed map) :
    searchHashMap map key = none ↔ ∀ item ∈ items map, item.key ≠ key := by
  rw [Option.eq_none_iff_forall_ne_some]
  constructor
  · intro hnone item hitem hkey
    exact hnone item ((searchHashMap_eq_some_iff h).mpr ⟨hitem, hkey⟩)
  · intro hfree item hsome
    obtain ⟨hitem, hkey⟩ := (searchHashMap_eq_some_iff h).mp hsome
    exact hfree item hitem hkey

/-! ## Put -/

theorem hashMapPut_of_taken (h : searchHashMap map key = some item) (value : Option ν) :
    hashMapPut map key value = (map, false) := by
  unfold searchHashMap at h
  unfold hashMapPut
  dsimp only
  cases hb : map.buckets (bucketOf map key) with
  | none => rw [hb] at h; cases h
  | some values =>
    rw [hb] at h
    dsimp only at h ⊢
    rw [h]

section addItem

variable {map : IcHashMap ν} {item : MapItem ν} {values : IcLinkedList (MapItem ν)}
  {b : Fin numBuckets}

theorem chain_addItem (hnodes : chain map b = values.nodes) :
    chain (addItem map b values item) =
      update (chain map) b (chain map b ++ [⟨map.allocated, item⟩]) := by
  rw [chain_update map b (linkedListAppend values map.allocated item) rfl, nodes_linkedListAppend,
    hnodes]

theorem nodes_addItem (hnodes : chain map b = values.nodes) :
    (nodes (addItem map b values item)).Perm (⟨map.allocated, item⟩ :: nodes map) := by
  rw [nodes, chain_addItem hnodes]
  have hchain : (update (chain map) b (chain map b ++ [⟨map.allocated, item⟩]) b).Perm
      (⟨map.allocated, item⟩ :: chain map b) := by simp
  simpa [nodes] using entries_perm_cons hchain

/-- Adding an item with a new key keeps the map well formed as long as the counters do not
overflow. -/
theorem WellFormed.addItem (h : WellFormed map) (hfree : ∀ x ∈ items map, x.key ≠ item.key)
    (hroom : (nodes map).length + 1 < 2 ^ 16)
    (hnodes : chain map (bucketOf map item.key) = values.nodes) (hcounted : values.Counted) :
    WellFormed (HashMap.addItem map (bucketOf map item.key) values item) := by
  have hperm : (nodes (HashMap.addItem map (bucketOf map item.key) values item)).Perm
      (⟨map.allocated, item⟩ :: nodes map) := nodes_addItem hnodes
  have hlength : (nodes (HashMap.addItem map (bucketOf map item.key) values item)).length =
      (nodes map).length + 1 := by rw [hperm.length_eq, length_cons]
  have hshort : values.nodes.length ≤ (nodes map).length := by
    rw [← hnodes]
    exact (sublist_flatten_of_mem (mem_map_of_mem (mem_finRange (bucketOf map item.key)))).length_le
  exact
    { slot := by
        apply h.slot_update (chain_addItem hnodes) rfl
        intro n hn
        obtain hn | hn := mem_append.mp hn
        · exact h.slot _ n hn
        · rw [mem_singleton.mp hn]
      keys := by
        rw [items, ((hperm.map ListNode.item).map MapItem.key).nodup_iff]
        refine nodup_cons.mpr ⟨fun hmem => ?_, h.keys⟩
        obtain ⟨x, hx, hkey⟩ := mem_map.mp hmem
        exact hfree x hx hkey
      alive := by
        rw [(hperm.map ListNode.node).nodup_iff]
        refine nodup_cons.mpr ⟨fun hmem => ?_, h.alive⟩
        -- an allocation is not one of the items that are alive
        obtain ⟨x, hx, hnode⟩ := mem_map.mp hmem
        exact absurd (h.old x hx) (by rw [hnode]; exact Nat.lt_irrefl _)
      old := by
        intro n hn
        obtain rfl | hn := mem_cons.mp (hperm.mem_iff.mp hn)
        · exact Nat.lt_succ_self _
        · exact Nat.lt_succ_of_lt (h.old n hn)
      sizes := h.sizes_update rfl (hcounted.append _ _ (by omega))
      count_eq := by
        show (map.count + 1) % 2 ^ 16 = _
        rw [hlength, h.count_eq, Nat.mod_eq_of_lt hroom]
      length_lt := by rw [hlength]; exact hroom }

end addItem

/-- A put of a key that is not there adds the item, unless the map is full. -/
theorem hashMapPut_of_free (h : WellFormed map) (hfree : searchHashMap map key = none)
    (hroom : (nodes map).length + 1 < 2 ^ 16) (value : Option ν) :
    ∃ map', hashMapPut map key value = (map', true) ∧ WellFormed map' ∧
      (items map').Perm (⟨key, value⟩ :: items map) := by
  have hfree' : ∀ x ∈ items map, x.key ≠ (⟨key, value⟩ : MapItem ν).key :=
    (searchHashMap_eq_none_iff h).mp hfree
  -- the list of the bucket is made if needed
  obtain ⟨values, hnodes, hcounted, hput⟩ : ∃ values : IcLinkedList (MapItem ν),
      chain map (bucketOf map key) = values.nodes ∧ values.Counted ∧
        hashMapPut map key value = (addItem map (bucketOf map key) values ⟨key, value⟩, true) := by
    unfold searchHashMap at hfree
    unfold hashMapPut
    dsimp only
    cases hb : map.buckets (bucketOf map key) with
    | none => exact ⟨linkedListCreate, chain_of_none hb, counted_create, rfl⟩
    | some values =>
      rw [hb] at hfree
      dsimp only at hfree ⊢
      exact ⟨values, chain_of_some hb, h.sizes _ values hb, by rw [hfree]⟩
  exact ⟨_, hput, h.addItem hfree' hroom hnodes hcounted, (nodes_addItem hnodes).map ListNode.item⟩

/-! ## Delete -/

theorem hashMapDelete_of_free (h : searchHashMap map key = none) :
    hashMapDelete map key = (map, false) := by
  unfold searchHashMap at h
  unfold hashMapDelete
  dsimp only
  cases hb : map.buckets (bucketOf map key) with
  | none => rfl
  | some values =>
    rw [hb] at h
    dsimp only at h ⊢
    rw [h]

section removeItem

variable {map : IcHashMap ν} {values : IcLinkedList (MapItem ν)} {n : ListNode (MapItem ν)}

theorem chain_removeItem {b : Fin numBuckets} (key : MapKey)
    (hvalues : map.buckets b = some values) :
    chain (removeItem map b values key) =
      update (chain map) b ((chain map b).eraseP fun x => searchLinkedList key x.item) := by
  rw [chain_update map b (linkedListDelete values (searchLinkedList key)).1 rfl,
    nodes_linkedListDelete, chain_of_some hvalues]

section

variable (h : WellFormed map) (hn : n ∈ nodes map)
  (hvalues : map.buckets (bucketOf map n.item.key) = some values)
include h hn hvalues

theorem nodes_removeItem :
    (nodes map).Perm
      (n :: nodes (removeItem map (bucketOf map n.item.key) values n.item.key)) := by
  rw [nodes, nodes, chain_removeItem n.item.key hvalues]
  apply entries_perm_cons
  obtain ⟨x, before, after, -, hx, hsplit, herase⟩ :=
    @exists_of_eraseP _ (fun x => searchLinkedList n.item.key x.item) _ n (h.mem_chain hn)
      (searchLinkedList_eq_true_iff.mpr rfl)
  have hmem : x ∈ nodes map := mem_nodes.mpr ⟨_, by rw [hsplit]; simp⟩
  obtain rfl := h.eq_of_key hmem hn (searchLinkedList_eq_true_iff.mp hx)
  rw [herase, hsplit]
  exact perm_middle

theorem WellFormed.removeItem :
    WellFormed (HashMap.removeItem map (bucketOf map n.item.key) values n.item.key) := by
  have hperm := nodes_removeItem h hn hvalues
  have hkeys := ((hperm.map ListNode.item).map MapItem.key).nodup_iff.mp h.keys
  have halive := (hperm.map ListNode.node).nodup_iff.mp h.alive
  have hlength := hperm.length_eq
  rw [length_cons] at hlength
  exact
    { slot := by
        apply h.slot_update (chain_removeItem n.item.key hvalues) rfl
        exact fun x hx => h.slot _ x (mem_of_mem_eraseP hx)
      keys := (nodup_cons.mp hkeys).2
      alive := (nodup_cons.mp halive).2
      old := fun x hx => h.old x (hperm.mem_iff.mpr (mem_cons_of_mem n hx))
      sizes := h.sizes_update rfl ((h.sizes _ values hvalues).delete _)
      count_eq := by
        show map.count - 1 = _
        rw [h.count_eq, hlength, Nat.add_sub_cancel]
      length_lt := Nat.lt_of_le_of_lt (by omega) h.length_lt }

end

end removeItem

/-- A delete of the key of a node takes this node out of its chain. -/
theorem hashMapDelete_of_mem (h : WellFormed map) (hn : n ∈ nodes map) :
    ∃ map', hashMapDelete map n.item.key = (map', true) ∧ WellFormed map' ∧
      (nodes map).Perm (n :: nodes map') ∧
      chain map' = update (chain map) (bucketOf map n.item.key)
        ((chain map (bucketOf map n.item.key)).eraseP
          fun x => searchLinkedList n.item.key x.item) := by
  have hfound : searchHashMap map n.item.key = some n.item :=
    (searchHashMap_eq_some_iff h).mpr ⟨mem_items.mpr ⟨n, hn, rfl⟩, rfl⟩
  obtain ⟨values, hvalues, hdelete⟩ : ∃ values,
      map.buckets (bucketOf map n.item.key) = some values ∧
      hashMapDelete map n.item.key =
        (removeItem map (bucketOf map n.item.key) values n.item.key, true) := by
    unfold searchHashMap at hfound
    unfold hashMapDelete
    dsimp only
    cases hb : map.buckets (bucketOf map n.item.key) with
    | none => rw [hb] at hfound; cases hfound
    | some values =>
      rw [hb] at hfound
      dsimp only at hfound ⊢
      exact ⟨values, rfl, by rw [hfound]⟩
  exact ⟨_, hdelete, h.removeItem hn hvalues, nodes_removeItem h hn hvalues,
    chain_removeItem n.item.key hvalues⟩

end ZilkerSdk.Types.HashMap
