import Mathlib.Data.List.Induction
import Mathlib.Data.List.Sort
import ZilkerSdk.Types.LinkedList

/-!
# Sorted linked lists

Model of `libs/types/c/src/icSortedLinkedList.c`.
-/

namespace ZilkerSdk.Types

open List

variable {α : Type*}

section

variable (compareFunc : α → α → Int)

/-- The loop puts the node before the first one that is not smaller, if there is one. -/
def insertNode (node : ListNode α) : List (ListNode α) → Option (List (ListNode α))
  | [] => none
  | ptr :: next =>
    if compareFunc node.item ptr.item ≤ 0 then some (node :: ptr :: next)
    else (insertNode node next).map (ptr :: ·)

/-- `sortedLinkedListAdd`, with the node that is made for the item.  As for `linkedListAppend`, the
list and the item are not `NULL`, and the answer is always true. -/
def sortedLinkedListAdd (l : IcLinkedList α) (node : ListNode α) : IcLinkedList α :=
  match insertNode compareFunc node l.nodes with
  | some nodes => ⟨(l.size + 1) % 2 ^ 16, nodes⟩
  | none => linkedListAppend l node.node node.item

/-- The comparison function is a total preorder. -/
structure TotalPreorder : Prop where
  swap : ∀ x y, compareFunc x y ≤ 0 ↔ 0 ≤ compareFunc y x
  trans : ∀ x y z, compareFunc x y ≤ 0 → compareFunc y z ≤ 0 → compareFunc x z ≤ 0

abbrev NotAfter (m n : ListNode α) : Prop := compareFunc m.item n.item ≤ 0

variable {compareFunc} (node : ListNode α)

theorem insertNode_eq (nodes : List (ListNode α)) :
    (insertNode compareFunc node nodes).getD (nodes ++ [node]) =
      nodes.orderedInsert (NotAfter compareFunc) node := by
  induction nodes with
  | nil => rfl
  | cons ptr next ih =>
    rw [insertNode, orderedInsert_cons, ← ih]
    split
    · rfl
    · cases insertNode compareFunc node next <;> rfl

theorem nodes_sortedLinkedListAdd (l : IcLinkedList α) :
    (sortedLinkedListAdd compareFunc l node).nodes =
      l.nodes.orderedInsert (NotAfter compareFunc) node := by
  rw [sortedLinkedListAdd, ← insertNode_eq]
  cases insertNode compareFunc node l.nodes with
  | none => exact nodes_linkedListAppend ..
  | some => rfl

theorem IcLinkedList.Counted.sortedAdd {l : IcLinkedList α} (h : l.Counted)
    (hroom : l.nodes.length + 1 < 2 ^ 16) : (sortedLinkedListAdd compareFunc l node).Counted := by
  have happend := h.append node.node node.item hroom
  unfold Counted at happend ⊢
  rw [nodes_linkedListAppend, length_append] at happend
  rw [nodes_sortedLinkedListAdd, orderedInsert_length, sortedLinkedListAdd]
  split
  · rw [h, Nat.mod_eq_of_lt hroom]
  · exact happend

/-- The additions sort the items by insertion, beginning with the one that was added last. -/
theorem foldl_sortedLinkedListAdd {added : List (ListNode α)} (hroom : added.length < 2 ^ 16) :
    (added.foldl (sortedLinkedListAdd compareFunc) linkedListCreate).Counted ∧
      (added.foldl (sortedLinkedListAdd compareFunc) linkedListCreate).nodes =
        added.reverse.insertionSort (NotAfter compareFunc) := by
  induction added using reverseRecOn with
  | nil => exact ⟨rfl, rfl⟩
  | append_singleton added node ih =>
    rw [length_append, length_singleton] at hroom
    obtain ⟨hcounted, hnodes⟩ := ih (by omega)
    rw [foldl_append, foldl_cons, foldl_nil, reverse_append, reverse_singleton, singleton_append,
      insertionSort_cons, ← hnodes]
    refine ⟨hcounted.sortedAdd node ?_, nodes_sortedLinkedListAdd ..⟩
    rwa [hnodes, length_insertionSort, length_reverse]

/-- Items that compare equal are in order already, so sorting leaves them in their order. -/
theorem filter_insertionSort (h : TotalPreorder compareFunc) (nodes : List (ListNode α)) (x : α) :
    (nodes.insertionSort (NotAfter compareFunc)).filter (fun n => compareFunc x n.item = 0) =
      nodes.filter fun n => compareFunc x n.item = 0 := by
  have hsorted : (nodes.filter fun n => compareFunc x n.item = 0).Pairwise
      (NotAfter compareFunc) := by
    rw [pairwise_filter]
    refine pairwise_of_forall fun m n hm hn => h.trans _ x _ ((h.swap _ _).mpr ?_) ?_
    · exact (of_decide_eq_true hm).ge
    · exact (of_decide_eq_true hn).le
  have hsub := (sublist_insertionSort hsorted filter_sublist).filter
    fun n => decide (compareFunc x n.item = 0)
  simp only [filter_filter, Bool.and_self] at hsub
  exact (hsub.eq_of_length ((perm_insertionSort _ nodes).filter _).length_eq.symm).symm

end

/-- After fewer than 65536 additions the list has the items that were added, in order, and those
that compare equal in the reverse of the order in which they were added. -/
theorem sortedLinkedListAdd_sorts {compareFunc : α → α → Int} (h : TotalPreorder compareFunc)
    {added : List (ListNode α)} (hroom : added.length < 65536) :
    let l := added.foldl (sortedLinkedListAdd compareFunc) linkedListCreate
    l.nodes.Perm added ∧ l.nodes.Pairwise (fun m n => compareFunc m.item n.item ≤ 0) ∧
      (∀ x, l.nodes.filter (fun n => compareFunc x n.item = 0) =
        (added.filter fun n => compareFunc x n.item = 0).reverse) ∧
      l.size = added.length := by
  obtain ⟨hcounted, hnodes⟩ := @foldl_sortedLinkedListAdd _ compareFunc added hroom
  have htotal : Std.Total (NotAfter compareFunc) :=
    ⟨fun m n => (Int.le_total _ _).imp_right (h.swap _ _).mpr⟩
  have htrans : IsTrans (ListNode α) (NotAfter compareFunc) := ⟨fun _ _ _ => h.trans _ _ _⟩
  have hperm := (perm_insertionSort (NotAfter compareFunc) added.reverse).trans (reverse_perm added)
  intro l
  have hsize : l.size = l.nodes.length := hcounted
  rw [hsize, hnodes]
  refine ⟨hperm, pairwise_insertionSort _ _, fun x => ?_, hperm.length_eq⟩
  rw [filter_insertionSort h, filter_reverse]

theorem sortedLinkedListAdd_sorts_three :
    ([⟨0, 2⟩, ⟨1, 1⟩, ⟨2, 2⟩].foldl (sortedLinkedListAdd fun x y : Int => x - y)
      linkedListCreate).size = 3 := by
  have h : TotalPreorder fun x y : Int => x - y := ⟨by omega, by omega⟩
  exact (@sortedLinkedListAdd_sorts _ _ h _ (by decide)).2.2.2

end ZilkerSdk.Types
