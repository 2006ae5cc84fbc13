import Mathlib.Algebra.Group.Nat.Defs
import Mathlib.Data.List.Basic

/-!
# The queue

Model of `libs/types/c/src/icQueue.c`: a singly linked list of items with a
`uint16_t` counter beside it.  The counter wraps when the 65536th item is pushed
and is never decremented below zero, so it can disagree with the list;
`queueIterate` and `queueClear` look at the counter first and do nothing when it
is zero.

The items stand for non-NULL pointers.
-/

namespace ZilkerSdk.Types

open List

variable {α σ : Type*}

structure IcQueue (α : Type*) where
  size : Nat
  items : List α
  deriving Repr, DecidableEq

/-! ## Operations -/

def queueCreate : IcQueue α := ⟨0, []⟩

def queueCount (q : IcQueue α) : Nat := q.size

def queuePush (q : IcQueue α) (item : α) : IcQueue α :=
  ⟨(q.size + 1) % 2 ^ 16, q.items ++ [item]⟩

/-- The first item, or `none` for the NULL of an empty queue. -/
def queuePop (q : IcQueue α) : Option α × IcQueue α :=
  match q.items with
  | [] => (none, q)
  | item :: rest => (some item, ⟨q.size - 1, rest⟩)

/-- Unlink the first item that the search accepts. -/
def queueDelete (q : IcQueue α) (searchFunc : α → Bool) : Bool × IcQueue α :=
  match q.items.find? searchFunc with
  | none => (false, q)
  | some _ => (true, ⟨q.size - 1, q.items.eraseP searchFunc⟩)

def queueFind (q : IcQueue α) (searchFunc : α → Bool) : Option α := q.items.find? searchFunc

/-- The walk of `queueIterate` along the nodes; the callback tells whether to go on. -/
def iterateNodes (callback : σ → α → σ × Bool) : List α → σ → σ
  | [], s => s
  | item :: rest, s =>
    if (callback s item).2 then iterateNodes callback rest (callback s item).1
    else (callback s item).1

def queueIterate (q : IcQueue α) (callback : σ → α → σ × Bool) (s : σ) : σ :=
  if q.size = 0 then s else iterateNodes callback q.items s

/-- The loop `while ((next = queuePop(queue)) != NULL)`: everything it pops, in
order, and the queue it leaves. -/
def queueDrain (q : IcQueue α) : List α × IcQueue α := (q.items, ⟨q.size - q.items.length, []⟩)

def queueClear (q : IcQueue α) : IcQueue α := if q.size = 0 then q else queueCreate

theorem queueDrain_eq_loop (q : IcQueue α) :
    queueDrain q =
      match queuePop q with
      | (none, q') => ([], q')
      | (some item, q') => (item :: (queueDrain q').1, (queueDrain q').2) := by
  obtain ⟨size, items⟩ := q
  cases items with
  | nil => rfl
  | cons item rest =>
    simp only [queueDrain, queuePop, length_cons, Prod.mk.injEq, IcQueue.mk.injEq, true_and,
      and_true]
    omega

theorem iterateNodes_eq_foldl {callback : σ → α → σ × Bool}
    (h : ∀ s item, (callback s item).2 = true) (items : List α) (s : σ) :
    iterateNodes callback items s = items.foldl (fun s item => (callback s item).1) s := by
  induction items generalizing s with
  | nil => rfl
  | cons item rest ih => simp [iterateNodes, h, ih]

/-! ## Items -/

@[simp] theorem items_queueCreate : (queueCreate : IcQueue α).items = [] := rfl

@[simp] theorem items_queuePush (q : IcQueue α) (item : α) :
    (queuePush q item).items = q.items ++ [item] := rfl

@[simp] theorem items_queueDelete (q : IcQueue α) (searchFunc : α → Bool) :
    (queueDelete q searchFunc).2.items = q.items.eraseP searchFunc := by
  unfold queueDelete
  split
  · rename_i h
    exact (eraseP_of_forall_not fun a ha => by simpa using find?_eq_none.mp h a ha).symm
  · rfl

theorem length_queuePop (q : IcQueue α) : (queuePop q).2.items.length = q.items.length - 1 := by
  obtain ⟨size, items⟩ := q
  cases items with
  | nil | cons => rfl

theorem length_queueDelete (q : IcQueue α) (searchFunc : α → Bool) :
    ((queueDelete q searchFunc).1 = true ∧ q.items.any searchFunc = true ∧
      (queueDelete q searchFunc).2.items.length + 1 = q.items.length) ∨
    ((queueDelete q searchFunc).1 = false ∧
      (queueDelete q searchFunc).2.items.length = q.items.length) := by
  unfold queueDelete
  split
  · exact .inr ⟨rfl, rfl⟩
  · rename_i a ha
    have hmem := mem_of_find?_eq_some ha
    have hfound := find?_some ha
    refine .inl ⟨rfl, any_eq_true.mpr ⟨a, hmem, hfound⟩, ?_⟩
    have hpos := length_pos_of_mem hmem
    have hlength := length_eraseP_of_mem hmem hfound
    dsimp only
    omega

/-- Erasing the first match of a search erases the item that the search finds. -/
theorem eraseP_eq_erase [DecidableEq α] {items : List α} {searchFunc : α → Bool} {a : α}
    (h : items.find? searchFunc = some a) : items.eraseP searchFunc = items.erase a := by
  induction items with
  | nil => simp at h
  | cons b rest ih =>
    rw [find?_cons] at h
    split at h
    · rename_i hb
      obtain rfl : b = a := by simpa using h
      simp [hb]
    · rename_i hb
      -- `a` is accepted and `b` is not, so the erased item lies further on
      have hne : b ≠ a := by
        intro e
        have := find?_some h
        simp_all
      simp [hb, hne, ih h]

variable {q : IcQueue α}

theorem items_queueClear (h : q.size = 0 → q.items = []) : (queueClear q).items = [] := by
  unfold queueClear
  split
  · exact h ‹_›
  · rfl

/-! ## The counter -/

/-- The counter is the number of items modulo 65536. -/
def Counted (q : IcQueue α) : Prop := q.size = q.items.length % 2 ^ 16

theorem counted_queueCreate : Counted (queueCreate : IcQueue α) := rfl

variable (h : Counted q)
include h

theorem Counted.push (item : α) : Counted (queuePush q item) := by
  unfold Counted at *
  simp only [queuePush, length_append, length_singleton]
  omega

theorem Counted.pop (hlt : q.items.length < 2 ^ 16) : Counted (queuePop q).2 := by
  obtain ⟨size, items⟩ := q
  cases items with
  | nil => exact h
  | cons item rest =>
    simp only [Counted, queuePop, length_cons] at h hlt ⊢
    omega

theorem Counted.delete (hlt : q.items.length < 2 ^ 16) (searchFunc : α → Bool) :
    Counted (queueDelete q searchFunc).2 := by
  unfold queueDelete
  split
  · exact h
  · rename_i a ha
    -- one item goes, and the counter was not zero
    have hmem := mem_of_find?_eq_some ha
    have hlen := length_eraseP_of_mem hmem (find?_some ha)
    unfold Counted at h ⊢
    simp only [hlen]
    omega

theorem Counted.drain : Counted (queueDrain q).2 := by
  unfold Counted at h ⊢
  simp only [queueDrain, length_nil]
  omega

theorem Counted.eq_nil (hlt : q.items.length < 2 ^ 16) (hzero : q.size = 0) :
    q.items = [] := by
  unfold Counted at h
  apply eq_nil_of_length_eq_zero
  omega

theorem Counted.clear : Counted (queueClear q) := by
  unfold queueClear
  split
  · exact h
  · exact counted_queueCreate

end ZilkerSdk.Types
