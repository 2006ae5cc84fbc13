import Mathlib.Algebra.Group.Nat.Defs
import Mathlib.Data.List.Nodup

/-!
# The linked list and its iterator

Model of the parts of `libs/types/c/src/icLinkedList.c` on which the hash map
stands.  The nodes of a list are a Lean list; a pointer to a node is the number of
the allocation that made the node, so that an iterator whose node was freed is
seen as such: following its pointer has no meaning (`none`).

`size` is the `uint16_t` the source keeps beside the nodes.  Iterators and `linkedListIterate` find
nothing in a list whose `size` is zero.  Where another module has a plain list for an
`icLinkedList`, its length is therefore taken to be no positive multiple of 65536.
-/

namespace ZilkerSdk.Types

open List

/-- `struct _listNode`, with the allocation it is. -/
structure ListNode (α : Type*) where
  node : Nat
  item : α

structure IcLinkedList (α : Type*) where
  size : Nat
  nodes : List (ListNode α)

variable {α : Type*}

/-! ## The list -/

def linkedListCreate : IcLinkedList α := ⟨0, []⟩

def linkedListCount (l : IcLinkedList α) : Nat := l.size

/-- Add an item behind the others, in the node with the number `node`.  The list and the item are
not `NULL` here, so the source's answer is always true and is left out. -/
def linkedListAppend (l : IcLinkedList α) (node : Nat) (item : α) : IcLinkedList α :=
  match l.nodes with
  | [] => ⟨1, [⟨node, item⟩]⟩
  | first :: rest => ⟨(l.size + 1) % 2 ^ 16, (first :: rest) ++ [⟨node, item⟩]⟩

/-- The first item the search function accepts. -/
def linkedListFind (l : IcLinkedList α) (searchFunc : α → Bool) : Option α :=
  (l.nodes.find? fun n => searchFunc n.item).map ListNode.item

/-- Unlink the node of the first item the search function accepts. -/
def linkedListDelete (l : IcLinkedList α) (searchFunc : α → Bool) : IcLinkedList α × Bool :=
  if l.nodes.any fun n => searchFunc n.item then
    (⟨l.size - 1, l.nodes.eraseP fun n => searchFunc n.item⟩, true)
  else (l, false)

/-- The size is the number of nodes. -/
def IcLinkedList.Counted (l : IcLinkedList α) : Prop := l.size = l.nodes.length

theorem counted_create : (linkedListCreate : IcLinkedList α).Counted := rfl

@[simp] theorem nodes_linkedListAppend (l : IcLinkedList α) (node : Nat) (item : α) :
    (linkedListAppend l node item).nodes = l.nodes ++ [⟨node, item⟩] := by
  unfold linkedListAppend
  split <;> simp [*]

variable {l : IcLinkedList α} {rest : List (ListNode α)}

theorem IcLinkedList.Counted.append (h : l.Counted) (node : Nat) (item : α)
    (hroom : l.nodes.length + 1 < 2 ^ 16) : (linkedListAppend l node item).Counted := by
  unfold Counted at h ⊢
  rw [nodes_linkedListAppend, length_append, length_singleton]
  unfold linkedListAppend
  split
  · rename_i hnil
    simp [hnil]
  · rw [h, Nat.mod_eq_of_lt hroom]

@[simp] theorem nodes_linkedListDelete (l : IcLinkedList α) (searchFunc : α → Bool) :
    (linkedListDelete l searchFunc).1.nodes = l.nodes.eraseP fun n => searchFunc n.item := by
  unfold linkedListDelete
  split
  · rfl
  · rename_i hnone
    refine (eraseP_of_forall_not fun n hn hmatch => hnone ?_).symm
    exact any_eq_true.mpr ⟨n, hn, hmatch⟩

theorem IcLinkedList.Counted.delete (h : l.Counted) (searchFunc : α → Bool) :
    (linkedListDelete l searchFunc).1.Counted := by
  unfold linkedListDelete
  split
  · rename_i hany
    obtain ⟨n, hn, hmatch⟩ := any_eq_true.mp hany
    show l.size - 1 = (l.nodes.eraseP _).length
    rw [length_eraseP_of_mem hn hmatch, h]
  · exact h

/-! ## The iterator -/

/-- `struct _icLinkedListIterator`: pointers to the node to return next and to the one returned
last. -/
structure IcLinkedListIterator where
  curr : Option Nat
  prev : Option Nat

/-- There is no iterator over an empty list. -/
def linkedListIteratorCreate (l : IcLinkedList α) : Option IcLinkedListIterator :=
  if l.size = 0 then none else some ⟨l.nodes.head?.map ListNode.node, none⟩

def linkedListIteratorHasNext (it : Option IcLinkedListIterator) : Bool :=
  match it with
  | none => false
  | some it => it.curr.isSome

def linkedListIteratorClearPrev (it : Option IcLinkedListIterator) : Option IcLinkedListIterator :=
  it.map fun it => { it with prev := none }

/-- The node at `curr`, which becomes `prev`.  The outer option is the meaning of the step: the
source reads the node at `curr`, so this has to be a node of the list. -/
def linkedListIteratorGetNext (l : IcLinkedList α) (it : IcLinkedListIterator) :
    Option (Option (ListNode α) × IcLinkedListIterator) :=
  match it.curr with
  | none => some (none, ⟨none, none⟩)
  | some p =>
    match l.nodes.dropWhile fun n => n.node ≠ p with
    | [] => none
    | n :: rest => some (some n, ⟨rest.head?.map ListNode.node, some p⟩)

/-- The iterator has still to return the nodes `rest`, which are the last ones of the list. -/
def Ahead (nodes : List (ListNode α)) (curr : Option Nat) (rest : List (ListNode α)) : Prop :=
  ∃ passed, nodes = passed ++ rest ∧ curr = rest.head?.map ListNode.node

theorem linkedListIteratorCreate_eq (h : l.Counted) (hne : l.nodes ≠ []) :
    linkedListIteratorCreate l = some ⟨l.nodes.head?.map ListNode.node, none⟩ := by
  have hsize : l.size ≠ 0 := by
    rw [h]
    exact fun hzero => hne (length_eq_zero_iff.mp hzero)
  rw [linkedListIteratorCreate, if_neg hsize]

/-- An iterator before a node gives this node and stands behind it afterwards. -/
theorem linkedListIteratorGetNext_cons {it : IcLinkedListIterator} {n : ListNode α}
    (hnodup : (l.nodes.map ListNode.node).Nodup) (h : Ahead l.nodes it.curr (n :: rest)) :
    ∃ it', linkedListIteratorGetNext l it = some (some n, it') ∧ Ahead l.nodes it'.curr rest := by
  obtain ⟨passed, hnodes, hcurr⟩ := h
  -- the nodes passed are other nodes, so the pointer leads to `n`
  have hpassed : ∀ x ∈ passed, (decide (x.node ≠ n.node)) = true := by
    intro x hx
    rw [hnodes, map_append, map_cons, nodup_middle, nodup_cons, mem_append, not_or] at hnodup
    have hne : x.node ≠ n.node := fun e => hnodup.1.1 (e ▸ mem_map_of_mem hx)
    simpa using hne
  have hdrop : l.nodes.dropWhile (fun x => x.node ≠ n.node) = n :: rest := by
    rw [hnodes, dropWhile_append_of_pos hpassed]
    exact dropWhile_cons_of_neg (by simp)
  refine ⟨⟨rest.head?.map ListNode.node, some n.node⟩, ?_, passed ++ [n], by simp [hnodes], rfl⟩
  rw [linkedListIteratorGetNext, hcurr]
  dsimp only [head?_cons, Option.map_some]
  rw [hdrop]

/-- Deleting a node that was passed leaves the iterator where it stands. -/
theorem Ahead.eraseP {nodes : List (ListNode α)} {curr : Option Nat} (h : Ahead nodes curr rest)
    {p : ListNode α → Bool} (hp : ∀ n ∈ rest, ¬ p n = true) : Ahead (nodes.eraseP p) curr rest := by
  obtain ⟨passed, hnodes, hcurr⟩ := h
  rw [hnodes, eraseP_append]
  split
  · exact ⟨passed.eraseP p, rfl, hcurr⟩
  · exact ⟨passed, by rw [eraseP_of_forall_not hp], hcurr⟩

end ZilkerSdk.Types
