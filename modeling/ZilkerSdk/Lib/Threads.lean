import Mathlib.Data.List.Perm.Basic
import ZilkerSdk.Lib.Pool

/-!
# Threads

A small library of programs with any number of threads.  The threads are a list, each
with its own local state, and a thread is named by its position; a move of one thread
replaces its state.  How many threads are in which kind of state is counted with
`List.countP`, and the lemmas say how a move changes such a count, in a form that linear
arithmetic can use.

`signal` is what `pthread_cond_signal` does to the threads that wait for the condition.
-/

namespace ZilkerSdk.Lib

variable {τ : Type*} {threads : List τ}

/-- A thread moves from the state `t` to the state `t'`. -/
theorem countP_set_add {i : Nat} {t : τ} (h : threads[i]? = some t) (p : τ → Bool) (t' : τ) :
    (threads.set i t').countP p + (p t).toNat = threads.countP p + (p t').toNat := by
  have hcount := countP_update p h t'
  cases hp : p t <;> cases hp' : p t' <;> simpa [hp, hp'] using hcount

/-- A thread is added. -/
theorem countP_append_singleton (threads : List τ) (p : τ → Bool) (t : τ) :
    (threads ++ [t]).countP p = threads.countP p + (p t).toNat := by
  cases h : p t <;> simp [h]

/-- A thread ends. -/
theorem countP_eraseIdx_add {i : Nat} {t : τ} (h : threads[i]? = some t) (p : τ → Bool) :
    (threads.eraseIdx i).countP p + (p t).toNat = threads.countP p := by
  obtain ⟨hi, rfl⟩ := List.getElem?_eq_some_iff.mp h
  rw [← (List.getElem_cons_eraseIdx_perm hi).countP_eq, List.countP_cons]
  cases p threads[i] <;> rfl

/-! ## Conditions -/

/-- One of the threads that wait is woken, the one at `choice`; without any, nothing happens. -/
def signal (waits : τ → Bool) (wake : τ → τ) (choice : Nat) (threads : List τ) :
    Option (List τ) :=
  if threads.any waits then
    match threads[choice]? with
    | none => none
    | some t => if waits t then some (threads.set choice (wake t)) else none
  else some threads

theorem signal_cases {waits : τ → Bool} {wake : τ → τ} {choice : Nat} {threads' : List τ}
    (h : signal waits wake choice threads = some threads') :
    (threads.countP waits = 0 ∧ threads' = threads) ∨
      ∃ t, threads[choice]? = some t ∧ waits t = true ∧ threads' = threads.set choice (wake t) := by
  revert h
  fun_cases signal waits wake choice threads <;> rintro ⟨⟩
  case case2 t ht hwaits => exact .inr ⟨t, ht, hwaits, rfl⟩
  case case4 hnone =>
    refine .inl ⟨List.countP_eq_zero.mpr fun t ht hwaits => hnone ?_, rfl⟩
    exact List.any_eq_true.mpr ⟨t, ht, hwaits⟩

end ZilkerSdk.Lib
