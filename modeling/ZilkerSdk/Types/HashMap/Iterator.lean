import ZilkerSdk.Lib.Members
import ZilkerSdk.Types.HashMap.Buckets

/-!
# Iterating over the hash map

Model of the iterator of `libs/types/c/src/icHashMap.c` and of the loop in which it
is used: `while (hasNext) { getNext; ... deleteCurrent }`, with the delete for some
of the entries.  The iterator holds a linked-list iterator that has moved past the
entry it returned, so deleting that entry frees nothing the iterator still needs.

A step that would read freed memory, or read the entry of a `getNext` that failed,
has no meaning (`none`).
-/

namespace ZilkerSdk.Types.HashMap

open Lib List

variable {ν : Type*}

/-! ## The iterator -/

/-- `struct _icHashMapIterator`: `currBucket` is `none` for the -1 before the first bucket, and
`prevItem` points to the item returned last. -/
structure IcHashMapIterator where
  currBucket : Option (Fin numBuckets)
  currIterator : Option IcLinkedListIterator
  prevItem : Option Nat

def hashMapIteratorCreate : IcHashMapIterator := ⟨none, none, none⟩

/-- The bucket has a list, and it counts items. -/
def occupied (map : IcHashMap ν) (bucket : Fin numBuckets) : Bool :=
  match map.buckets bucket with
  | none => false
  | some values => decide (linkedListCount values > 0)

/-- The number of the bucket after the current one. -/
def IcHashMapIterator.nextBucket (it : IcHashMapIterator) : Nat :=
  match it.currBucket with
  | none => 0
  | some b => b + 1

/-- The first occupied bucket after the current one; `none` for the -1 of the source. -/
def findNextOccupiedSlot (map : IcHashMap ν) (it : IcHashMapIterator) : Option (Fin numBuckets) :=
  ((List.finRange numBuckets).drop it.nextBucket).find? (occupied map)

def useSlot (map : IcHashMap ν) (it : IcHashMapIterator) (bucket : Fin numBuckets) :
    IcHashMapIterator :=
  { it with
    currBucket := some bucket
    currIterator := (map.buckets bucket).bind linkedListIteratorCreate }

/-- Go to the next occupied bucket if there is one. -/
def moveOn (map : IcHashMap ν) (it : IcHashMapIterator) : Bool × IcHashMapIterator :=
  match findNextOccupiedSlot map it with
  | some x => (true, useSlot map it x)
  | none => (false, it)

def hashMapIteratorHasNext (map : IcHashMap ν) (it : IcHashMapIterator) :
    Bool × IcHashMapIterator :=
  match it.currBucket with
  -- the first time through
  | none => moveOn map it
  | some _ =>
    if linkedListIteratorHasNext it.currIterator then (true, it)
    -- this bucket has been exhausted
    else moveOn map { it with currIterator := none }

/-- The next item, or `some none` where the source returns false. -/
def hashMapIteratorGetNext (map : IcHashMap ν) (it : IcHashMapIterator) :
    Option (Option (MapItem ν) × IcHashMapIterator) :=
  match it.currIterator, it.currBucket.bind map.buckets with
  | none, _ => some (none, { it with prevItem := none })
  -- the list of the iterator is gone
  | some _, none => none
  | some li, some values =>
    match linkedListIteratorGetNext values li with
    | none => none
    | some (none, li') => some (none, { it with currIterator := some li', prevItem := none })
    | some (some n, li') =>
      some (some n.item, { it with currIterator := some li', prevItem := some n.node })

/-- Forget the item returned last, here and in the linked-list iterator. -/
def IcHashMapIterator.clearPrev (it : IcHashMapIterator) : IcHashMapIterator :=
  { it with currIterator := linkedListIteratorClearPrev it.currIterator, prevItem := none }

/-- Delete the item returned last, by its key. -/
def hashMapIteratorDeleteCurrent (map : IcHashMap ν) (it : IcHashMapIterator) :
    Option (IcHashMap ν × IcHashMapIterator × Bool) :=
  match it.prevItem with
  | none => some (map, it, false)
  | some p =>
    match findMember ListNode.node p (nodes map) with
    -- the item was freed
    | none => none
    | some n =>
      let result := hashMapDelete map n.item.key
      some (result.1, it.clearPrev, result.2)

/-! ## The loop -/

/-- What one turn of the loop shows: the entry, and the answer of the delete if it was called. -/
structure Visit (ν : Type*) where
  item : MapItem ν
  deleted : Option Bool

/-- The body of the loop: take the next entry, and delete it if `del` says so. -/
def visitNext (del : MapKey → Bool) (map : IcHashMap ν) (it : IcHashMapIterator) :
    Option (IcHashMap ν × IcHashMapIterator × Visit ν) :=
  match hashMapIteratorGetNext map it with
  | none => none
  | some (none, _) => none
  | some (some item, it') =>
    if del item.key then
      match hashMapIteratorDeleteCurrent map it' with
      | none => none
      | some (map', it'', ok) => some (map', it'', ⟨item, some ok⟩)
    else some (map, it', ⟨item, none⟩)

/-- The loop, for at most `fuel` calls of `hashMapIteratorHasNext`. -/
def iterateLoop (del : MapKey → Bool) :
    Nat → IcHashMap ν → IcHashMapIterator → Option (IcHashMap ν × List (Visit ν))
  | 0, _, _ => none
  | fuel + 1, map, it =>
    match hashMapIteratorHasNext map it with
    | (false, _) => some (map, [])
    | (true, it') =>
      match visitNext del map it' with
      | none => none
      | some (map', it'', visit) =>
        (iterateLoop del fuel map' it'').map fun result => (result.1, visit :: result.2)

/-- A full iteration.  The loop may ask once for each item and once more. -/
def iterate (del : MapKey → Bool) (map : IcHashMap ν) : Option (IcHashMap ν × List (Visit ν)) :=
  iterateLoop del ((nodes map).length + 1) map hashMapIteratorCreate

/-! ## Where the iterator stands -/

/-- The node the linked-list iterator returns next. -/
def IcHashMapIterator.currNode (it : IcHashMapIterator) : Option Nat :=
  it.currIterator.bind IcLinkedListIterator.curr

/-- The nodes the iterator has still to return: some of its bucket and all of the later ones. -/
def Remaining (map : IcHashMap ν) (it : IcHashMapIterator) (rest : List (ListNode (MapItem ν))) :
    Prop :=
  match it.currBucket with
  | none => rest = nodes map
  | some b => ∃ here, Ahead (chain map b) it.currNode here ∧
      rest = here ++ entriesFrom (chain map) (b + 1)

/-- The iterator stands before the node `n` of its bucket, and `rest` follows. -/
def Before (map : IcHashMap ν) (it : IcHashMapIterator) (n : ListNode (MapItem ν))
    (rest : List (ListNode (MapItem ν))) : Prop :=
  ∃ b values li here, it.currBucket = some b ∧ map.buckets b = some values ∧
    it.currIterator = some li ∧ Ahead values.nodes li.curr (n :: here) ∧
    rest = here ++ entriesFrom (chain map) (b + 1)

variable {map : IcHashMap ν} {it : IcHashMapIterator} {rest : List (ListNode (MapItem ν))}
  {n : ListNode (MapItem ν)}

theorem Remaining.sublist (h : Remaining map it rest) : rest.Sublist (nodes map) := by
  unfold Remaining at h
  split at h
  · rw [h]
  · obtain ⟨here, ⟨passed, hchain, -⟩, rfl⟩ := h
    apply append_entriesFrom_sublist
    rw [hchain]
    exact sublist_append_right passed here

theorem Before.remaining (h : Before map it n rest) : Remaining map it (n :: rest) := by
  obtain ⟨b, values, li, here, hb, hvalues, hli, hahead, rfl⟩ := h
  unfold Remaining IcHashMapIterator.currNode
  rw [hb, hli]
  exact ⟨n :: here, by rw [chain_of_some hvalues]; exact hahead, rfl⟩

/-! ## Has next -/

section

variable (h : WellFormed map)
include h

theorem WellFormed.occupied_iff (b : Fin numBuckets) :
    occupied map b = true ↔ chain map b ≠ [] := by
  unfold occupied
  cases hb : map.buckets b with
  | none => simp [chain_of_none hb]
  | some values =>
    have hsize : linkedListCount values = values.nodes.length := h.sizes b values hb
    rw [chain_of_some hb]
    simp [hsize, length_pos_iff]

theorem WellFormed.chain_eq_nil (b : Fin numBuckets)
    (hb : occupied map b = false) : chain map b = [] := by
  by_contra hne
  rw [(h.occupied_iff b).mpr hne] at hb
  cases hb

theorem moveOn_nil (hrest : entriesFrom (chain map) it.nextBucket = []) :
    moveOn map it = (false, it) := by
  unfold moveOn
  split
  · rename_i x hx
    -- an occupied bucket would have something left in it
    have hchain := entriesFrom_of_find h.chain_eq_nil hx
    rw [hrest, eq_comm, append_eq_nil_iff] at hchain
    exact absurd hchain.1 ((h.occupied_iff x).mp (find?_some hx))
  · rfl

theorem moveOn_cons (hrest : entriesFrom (chain map) it.nextBucket = n :: rest) :
    ∃ it', moveOn map it = (true, it') ∧ Before map it' n rest := by
  unfold moveOn
  split
  · rename_i x hx
    refine ⟨_, rfl, ?_⟩
    have hocc : chain map x ≠ [] := (h.occupied_iff x).mp (find?_some hx)
    have hchain := entriesFrom_of_find h.chain_eq_nil hx
    -- the bucket begins with the first node that remains
    obtain ⟨first, here, hhere⟩ := exists_cons_of_ne_nil hocc
    rw [hrest, hhere, cons_append] at hchain
    cases hchain
    cases hb : map.buckets x with
    | none => exact absurd (chain_of_none hb) hocc
    | some values =>
      rw [chain_of_some hb] at hhere
      have hne : values.nodes ≠ [] := by
        rw [hhere]
        exact cons_ne_nil n here
      refine ⟨x, values, ⟨some n.node, none⟩, here, rfl, hb, ?_, ⟨[], hhere, rfl⟩, rfl⟩
      rw [useSlot, hb, Option.bind_some, linkedListIteratorCreate_eq (h.sizes x values hb) hne,
        hhere]
      rfl
  · rename_i hnone
    have hnil : entriesFrom (chain map) it.nextBucket = [] := by
      rw [entriesFrom, flatMap_eq_nil_iff]
      intro i hi
      exact h.chain_eq_nil i (by simpa using find?_eq_none.mp hnone i hi)
    rw [hnil] at hrest
    cases hrest

end

theorem linkedListIteratorHasNext_eq (it : IcHashMapIterator) :
    linkedListIteratorHasNext it.currIterator = it.currNode.isSome := by
  unfold IcHashMapIterator.currNode
  cases it.currIterator with
  | none | some => rfl

section

variable (h : WellFormed map)
include h

/-- With nothing left there is no next entry. -/
theorem hashMapIteratorHasNext_nil (hrest : Remaining map it []) :
    ∃ it', hashMapIteratorHasNext map it = (false, it') := by
  obtain ⟨currBucket, currIterator, prevItem⟩ := it
  rw [hashMapIteratorHasNext]
  cases currBucket with
  | none => exact ⟨_, moveOn_nil h (Eq.symm hrest)⟩
  | some b =>
    obtain ⟨here, ⟨passed, -, hcurr⟩, hnil⟩ := hrest
    obtain ⟨rfl, hlater⟩ := append_eq_nil_iff.mp hnil.symm
    rw [linkedListIteratorHasNext_eq ⟨some b, currIterator, prevItem⟩, hcurr]
    exact ⟨_, moveOn_nil h hlater⟩

/-- With something left the iterator moves before it. -/
theorem hashMapIteratorHasNext_cons (hrest : Remaining map it (n :: rest)) :
    ∃ it', hashMapIteratorHasNext map it = (true, it') ∧ Before map it' n rest := by
  obtain ⟨currBucket, currIterator, prevItem⟩ := it
  rw [hashMapIteratorHasNext]
  cases currBucket with
  | none => exact moveOn_cons h (Eq.symm hrest)
  | some b =>
    obtain ⟨here, ⟨passed, hchain, hcurr⟩, hsplit⟩ := hrest
    rw [linkedListIteratorHasNext_eq ⟨some b, currIterator, prevItem⟩, hcurr]
    cases here with
    | nil => exact moveOn_cons h hsplit.symm
    | cons first here =>
      cases hsplit
      obtain ⟨li, rfl, hli⟩ := Option.bind_eq_some_iff.mp hcurr
      cases hb : map.buckets b with
      | none => rw [chain_of_none hb] at hchain; simp at hchain
      | some values =>
        rw [chain_of_some hb] at hchain
        exact ⟨_, rfl, b, values, li, here, rfl, hb, rfl, ⟨passed, hchain, hli⟩, rfl⟩

/-! ## Get next -/

theorem WellFormed.nodup_chain {b : Fin numBuckets} {values : IcLinkedList (MapItem ν)}
    (hb : map.buckets b = some values) : (values.nodes.map ListNode.node).Nodup := by
  have hsub : (values.nodes ++ entriesFrom (chain map) (b + 1)).Sublist (nodes map) :=
    append_entriesFrom_sublist (by rw [chain_of_some hb])
  exact h.alive.sublist (((sublist_append_left _ _).trans hsub).map ListNode.node)

theorem hashMapIteratorGetNext_spec (hbefore : Before map it n rest) :
    ∃ it', hashMapIteratorGetNext map it = some (some n.item, it') ∧
      it'.prevItem = some n.node ∧ Remaining map it' rest := by
  obtain ⟨b, values, li, here, hb, hvalues, hli, hahead, rfl⟩ := hbefore
  obtain ⟨li', hnext, hahead'⟩ := linkedListIteratorGetNext_cons (h.nodup_chain hvalues) hahead
  refine ⟨{ it with currIterator := some li', prevItem := some n.node }, ?_, rfl, ?_⟩
  · rw [hashMapIteratorGetNext, hb, Option.bind_some, hvalues, hli]
    dsimp only
    rw [hnext]
  · rw [hb]
    exact ⟨here, by rw [chain_of_some hvalues]; exact hahead', rfl⟩

/-! ## Delete current -/

theorem Remaining.delete {map' : IcHashMap ν} (hrest : Remaining map it rest) (hn : n ∈ nodes map)
    (hpassed : n ∉ rest)
    (hchain : chain map' = Function.update (chain map) (bucketOf map n.item.key)
      ((chain map (bucketOf map n.item.key)).eraseP fun x => searchLinkedList n.item.key x.item)) :
    Remaining map' it rest := by
  have hsub := hrest.sublist
  unfold Remaining at hrest ⊢
  cases hb : it.currBucket with
  | none =>
    rw [hb] at hrest
    exact absurd (hrest ▸ hn) hpassed
  | some b =>
    rw [hb] at hrest
    obtain ⟨here, hahead, rfl⟩ := hrest
    refine ⟨here, ?_, ?_⟩
    · by_cases heq : b = bucketOf map n.item.key
      · -- the node is one of those the iterator has passed in this bucket
        rw [hchain, ← heq, Function.update_self]
        apply hahead.eraseP
        intro x hx hkey
        have hmem := hsub.subset (mem_append_left _ hx)
        obtain rfl := h.eq_of_key hmem hn (searchLinkedList_eq_true_iff.mp hkey)
        exact hpassed (mem_append_left _ hx)
      · rw [hchain, Function.update_of_ne heq]
        exact hahead
    · -- its bucket is not one of the later ones
      rw [hchain, entriesFrom_update]
      apply Nat.lt_of_not_le
      intro hle
      exact hpassed (mem_append_right _ (mem_entriesFrom.mpr ⟨_, hle, h.mem_chain hn⟩))

end

theorem Remaining.clearPrev (h : Remaining map it rest) : Remaining map it.clearPrev rest := by
  have hnode : it.clearPrev.currNode = it.currNode := by
    unfold IcHashMapIterator.currNode IcHashMapIterator.clearPrev
    cases it.currIterator with
    | none | some => rfl
  unfold Remaining at h ⊢
  rw [hnode]
  exact h

/-- The item returned last can be deleted, and the iterator goes on as if nothing had happened. -/
theorem hashMapIteratorDeleteCurrent_spec (h : WellFormed map) (hn : n ∈ nodes map)
    (hprev : it.prevItem = some n.node) (hrest : Remaining map it rest) (hpassed : n ∉ rest) :
    ∃ map' it', hashMapIteratorDeleteCurrent map it = some (map', it', true) ∧ WellFormed map' ∧
      (nodes map).Perm (n :: nodes map') ∧ Remaining map' it' rest := by
  obtain ⟨map', hdelete, hwf, hperm, hchain⟩ := hashMapDelete_of_mem h hn
  -- the item is alive, so its key can be read
  have hfind : findMember ListNode.node n.node (nodes map) = some n :=
    (findMember_eq_some_iff h.alive).mpr ⟨hn, rfl⟩
  refine ⟨map', it.clearPrev, ?_, hwf, hperm, (hrest.delete h hn hpassed hchain).clearPrev⟩
  rw [hashMapIteratorDeleteCurrent, hprev]
  dsimp only
  rw [hfind]
  dsimp only
  rw [hdelete]

/-! ## The whole loop -/

/-- What a visit of the node shows. -/
def visitOf (del : MapKey → Bool) (n : ListNode (MapItem ν)) : Visit ν :=
  ⟨n.item, if del n.item.key then some true else none⟩

section

variable (del : MapKey → Bool) (h : WellFormed map)
include h

/-- One turn of the loop visits the next node and takes it out if it was told to. -/
theorem visitNext_spec (hbefore : Before map it n rest) :
    ∃ map' it', visitNext del map it = some (map', it', visitOf del n) ∧ WellFormed map' ∧
      Remaining map' it' rest ∧
      ∀ x, x ∈ nodes map' ↔ x ∈ nodes map ∧ ¬ (x = n ∧ del x.item.key = true) := by
  obtain ⟨it', hnext, hprev, hrest⟩ := hashMapIteratorGetNext_spec h hbefore
  have hsub := hbefore.remaining.sublist
  have hn : n ∈ nodes map := hsub.subset mem_cons_self
  have hnodup : (nodes map).Nodup := h.alive.of_map _
  unfold visitNext visitOf
  rw [hnext]
  dsimp only
  by_cases hdel : del n.item.key = true
  · have hpassed : n ∉ rest := (nodup_cons.mp (hnodup.sublist hsub)).1
    obtain ⟨map', it'', hdelete, hwf, hperm, hrest'⟩ :=
      hashMapIteratorDeleteCurrent_spec h hn hprev hrest hpassed
    rw [if_pos hdel, if_pos hdel, hdelete]
    refine ⟨map', it'', rfl, hwf, hrest', fun x => ?_⟩
    -- a node is in the table once, so the deleted one is not there any more
    have hgone : n ∉ nodes map' := (nodup_cons.mp (hperm.nodup_iff.mp hnodup)).1
    rw [hperm.mem_iff, mem_cons]
    by_cases hx : x = n
    · subst hx
      simp [hgone, hdel]
    · simp [hx]
  · rw [if_neg hdel, if_neg hdel]
    refine ⟨map, it', rfl, h, hrest, fun x => ?_⟩
    by_cases hx : x = n
    · subst hx
      simp [hdel]
    · simp [hx]

/-- The loop visits what remains, in this order, and then ends. -/
theorem iterateLoop_spec {fuel : Nat} (hrest : Remaining map it rest) (hfuel : rest.length < fuel) :
    ∃ map', iterateLoop del fuel map it = some (map', rest.map (visitOf del)) ∧ WellFormed map' ∧
      ∀ x, x ∈ nodes map' ↔ x ∈ nodes map ∧ ¬ (x ∈ rest ∧ del x.item.key = true) := by
  -- by induction on what remains; each turn takes its first node away
  induction rest generalizing fuel map it with
  | nil =>
    obtain ⟨fuel, rfl⟩ := Nat.exists_eq_add_one_of_ne_zero (Nat.ne_of_gt hfuel)
    obtain ⟨it', hend⟩ := hashMapIteratorHasNext_nil h hrest
    refine ⟨map, ?_, h, by simp⟩
    rw [iterateLoop, hend]
    rfl
  | cons n rest ih =>
    obtain ⟨fuel, rfl⟩ := Nat.exists_eq_add_one_of_ne_zero (Nat.ne_of_gt (Nat.zero_lt_of_lt hfuel))
    obtain ⟨it₁, hhas, hbefore⟩ := hashMapIteratorHasNext_cons h hrest
    obtain ⟨map₂, it₂, hvisit, hwf₂, hrest₂, hmem₂⟩ := visitNext_spec del h hbefore
    obtain ⟨map', hloop, hwf', hmem'⟩ := ih hwf₂ hrest₂ (by simpa using hfuel)
    refine ⟨map', ?_, hwf', fun x => ?_⟩
    · rw [iterateLoop, hhas]
      dsimp only
      rw [hvisit]
      dsimp only
      rw [hloop]
      rfl
    · rw [hmem', hmem₂, mem_cons]
      tauto

/-- A full iteration ends, visits each item that was there at its start once, and takes out those
it was told to. -/
theorem iterate_spec :
    ∃ map', iterate del map = some (map', (nodes map).map (visitOf del)) ∧ WellFormed map' ∧
      ∀ x, x ∈ nodes map' ↔ x ∈ nodes map ∧ del x.item.key = false := by
  obtain ⟨map', hloop, hwf, hmem⟩ :=
    iterateLoop_spec del h (show Remaining map hashMapIteratorCreate (nodes map) from rfl)
      (Nat.lt_succ_self _)
  refine ⟨map', hloop, hwf, fun x => ?_⟩
  rw [hmem, ← Bool.not_eq_true]
  tauto

end

end ZilkerSdk.Types.HashMap
