import Mathlib.Data.List.Forall2

/-!
# Fallible operations and loops that stop at the first failure

An operation `σ → Option (σ × Bool)` changes a state and reports success.  A
failed operation may have changed the state; `none` is undefined behaviour.
The combinators are the two shapes in which C code strings such operations
together: `if (ok) { next }` and `while (...) { if (!f(x)) { ok = false; break; } }`.
-/

namespace ZilkerSdk.Lib

open List

variable {σ α : Type*}

/-- An operation that changes a state and reports success. -/
abbrev Fallible (σ : Type*) := σ → Option (σ × Bool)

namespace Fallible

/-- Do nothing, successfully. -/
def succeed : Fallible σ := fun s => some (s, true)

/-- Do nothing and report a failure. -/
def refuse : Fallible σ := fun s => some (s, false)

/-- Go on with `q` only after `p` succeeded. -/
def andThen (p q : Fallible σ) : Fallible σ := fun s =>
  match p s with
  | none => none
  | some (s', true) => q s'
  | some (s', false) => some (s', false)

/-- Apply `f` to the items in order and stop at the first failure. -/
def forEach (f : α → Fallible σ) : List α → Fallible σ
  | [] => succeed
  | a :: as => (f a).andThen (forEach f as)

variable {p q : Fallible σ} {s s'' : σ} {as : List α}

/-- A conjunction succeeds exactly when both parts do. -/
theorem andThen_eq_true :
    p.andThen q s = some (s'', true) ↔ ∃ s', p s = some (s', true) ∧ q s' = some (s'', true) := by
  unfold andThen
  constructor
  · intro h
    split at h
    · cases h
    · exact ⟨_, ‹_›, h⟩
    · cases h
  · rintro ⟨s', hp, hq⟩
    simp [hp, hq]

/-- What a conjunction can do: stop at `p`, or continue with `q`. -/
theorem andThen_cases {ok : Bool} (h : p.andThen q s = some (s'', ok)) :
    (p s = some (s'', false) ∧ ok = false) ∨
      ∃ s', p s = some (s', true) ∧ q s' = some (s'', ok) := by
  unfold andThen at h
  split at h
  · cases h
  · exact .inr ⟨_, ‹_›, h⟩
  · cases h
    exact .inl ⟨‹_›, rfl⟩

/-- A loop that does not look at the results does what the stopping loop does,
as long as nothing fails. -/
theorem foldlM_of_forEach {f : α → Fallible σ} {s' : σ} (h : forEach f as s = some (s', true)) :
    as.foldlM (fun s a => (f a s).map Prod.fst) s = some s' := by
  induction as generalizing s with
  | nil => simpa [forEach, succeed] using h
  | cons a as ih =>
    obtain ⟨s₁, h₁, h₂⟩ := andThen_eq_true.mp h
    simp [foldlM_cons, h₁, ih h₂]

/-- A loop does what another loop does whose rounds do the same. -/
theorem forEach_congr {f g : α → Fallible σ} (h : ∀ a ∈ as, f a = g a) :
    forEach f as = forEach g as := by
  induction as with
  | nil => rfl
  | cons a as ih =>
    have htail := ih fun b hb => h b (mem_cons_of_mem a hb)
    rw [forEach, forEach, h a mem_cons_self, htail]

section Trace

variable {ε : Type*}

/-- Append the event of an item to a trace.  An item without an event is a failure; the
event itself tells whether it succeeded. -/
def attempt (event : α → Option ε) (succeeds : ε → Bool) (a : α) : Fallible (List ε) := fun trace =>
  match event a with
  | none => some (trace, false)
  | some e => some (trace ++ [e], succeeds e)

/-- A loop of attempts makes some of the events, in order and each at most once, and makes
every event before which nothing failed. -/
theorem forEach_attempt (event : α → Option ε) (succeeds : ε → Bool) (as : List α)
    (trace : List ε) :
    ∃ made ok, forEach (attempt event succeeds) as trace = some (trace ++ made, ok) ∧
      made.Sublist (as.filterMap event) ∧
      ∀ before a after e, as = before ++ a :: after →
        (∀ b ∈ before, ∃ e', event b = some e' ∧ succeeds e' = true) → event a = some e →
        e ∈ made := by
  induction as generalizing trace with
  | nil =>
    refine ⟨[], true, by simp [forEach, succeed], by simp, ?_⟩
    intro before a after e hsplit
    simp at hsplit
  | cons a as ih =>
    -- the first item fails without an event, fails with one, or succeeds
    cases hevent : event a with
    | none =>
      refine ⟨[], false, by simp [forEach, andThen, attempt, hevent], nil_sublist _, ?_⟩
      intro before b after e hsplit hbefore hb
      cases before with
      | nil =>
        cases hsplit
        rw [hevent] at hb
        cases hb
      | cons c before =>
        cases hsplit
        obtain ⟨e', hc, -⟩ := hbefore a mem_cons_self
        rw [hevent] at hc
        cases hc
    | some first =>
      cases hok : succeeds first with
      | false =>
        refine ⟨[first], false, by simp [forEach, andThen, attempt, hevent, hok], ?_, ?_⟩
        · simp [hevent]
        · intro before b after e hsplit hbefore hb
          cases before with
          | nil =>
            cases hsplit
            rw [hevent] at hb
            simp [Option.some.inj hb]
          | cons c before =>
            -- nothing comes after the failure
            cases hsplit
            obtain ⟨e', hc, hsucceeds⟩ := hbefore a mem_cons_self
            rw [hevent] at hc
            rw [← Option.some.inj hc, hok] at hsucceeds
            cases hsucceeds
      | true =>
        obtain ⟨made, ok, hrun, hsub, hmade⟩ := ih (trace ++ [first])
        refine ⟨first :: made, ok, ?_, ?_, ?_⟩
        · simpa [forEach, andThen, attempt, hevent, hok] using hrun
        · simpa [hevent] using hsub
        · intro before b after e hsplit hbefore hb
          cases before with
          | nil =>
            cases hsplit
            rw [hevent] at hb
            simp [Option.some.inj hb]
          | cons c before =>
            obtain ⟨-, htail⟩ := cons.inj hsplit
            exact mem_cons_of_mem _ (hmade before b after e htail
              (fun d hd => hbefore d (mem_cons_of_mem _ hd)) hb)

end Trace

end Fallible

variable {β γ : Type*} {f : α → Option β} {g : β → γ} {as : List α} {bs : List β} {R : α → β → Prop}

/-- What the kept images of some items are about, if each is about its item. -/
theorem sublist_map_filterMap {h : α → γ} (as : List α) (hf : ∀ a b, f a = some b → g b = h a) :
    ((as.filterMap f).map g).Sublist (as.map h) := by
  induction as with
  | nil => exact List.Sublist.refl _
  | cons a as ih =>
    rw [filterMap_cons, map_cons]
    cases hfa : f a with
    | none => exact ih.cons _
    | some b =>
      rw [map_cons, hf a b hfa]
      exact ih.cons_cons _

/-- A loop none of whose rounds has undefined behaviour has none. -/
theorem foldlM_defined {f : σ → α → Option σ} (as : List α)
    (hf : ∀ a ∈ as, ∀ s, ∃ s', f s a = some s') (s : σ) : ∃ s', as.foldlM f s = some s' := by
  induction as generalizing s with
  | nil => exact ⟨s, rfl⟩
  | cons a as ih =>
    obtain ⟨s₁, h₁⟩ := hf a mem_cons_self s
    obtain ⟨s', h'⟩ := ih (fun x hx => hf x (mem_cons_of_mem a hx)) s₁
    exact ⟨s', by simp [foldlM_cons, h₁, h']⟩

/-- If each round is defined for the items with a property, whatever the state, the loop is
defined for the lists of such items. -/
theorem foldlM_isSome_iff {f : σ → α → Option σ} {P : α → Prop}
    (hf : ∀ s a, (f s a).isSome ↔ P a) (as : List α) (s : σ) :
    (as.foldlM f s).isSome ↔ ∀ a ∈ as, P a := by
  induction as generalizing s with
  | nil => simp
  | cons a as ih =>
    rw [foldlM_cons, forall_mem_cons, ← hf s a]
    cases hfa : f s a with
    | none => simp
    | some s₁ => simpa using ih s₁

/-- A loop that makes a list item by item. -/
theorem mapM_eq_some_iff : as.mapM f = some bs ↔ List.Forall₂ (fun a b => f a = some b) as bs := by
  induction as generalizing bs with
  | nil => simp [eq_comm]
  | cons a as ih =>
    simp only [mapM_cons, Option.bind_eq_bind, Option.bind_eq_some_iff, Option.pure_def,
      Option.some.injEq, forall₂_cons_left_iff, ih]
    constructor
    · rintro ⟨b, hb, bs, hbs, rfl⟩
      exact ⟨b, bs, hb, hbs, rfl⟩
    · rintro ⟨b, bs, hb, hbs, rfl⟩
      exact ⟨b, hb, bs, hbs, rfl⟩

/-- Two such loops, one after the other. -/
theorem Forall₂.comp {S : β → γ → Prop} {cs : List γ} (hR : List.Forall₂ R as bs)
    (hS : List.Forall₂ S bs cs) : List.Forall₂ (fun a c => ∃ b, R a b ∧ S b c) as cs := by
  induction hR generalizing cs with
  | nil =>
    cases hS
    exact .nil
  | cons hab _ ih =>
    cases hS with
    | cons hbc htail => exact .cons ⟨_, hab, hbc⟩ (ih htail)

theorem Forall₂.map_eq {f : α → γ} (h : List.Forall₂ (fun a b => f a = g b) as bs) :
    as.map f = bs.map g := by
  rwa [← forall₂_eq_eq_eq, forall₂_map_left_iff, forall₂_map_right_iff]

/-- Each item of the one list has its counterpart in the other. -/
theorem Forall₂.exists_right (h : List.Forall₂ R as bs) {a : α} (ha : a ∈ as) :
    ∃ b ∈ bs, R a b := by
  induction h with
  | nil => cases ha
  | cons hab _ ih =>
    rcases mem_cons.mp ha with rfl | ha
    · exact ⟨_, mem_cons_self, hab⟩
    · obtain ⟨b, hb, hab⟩ := ih ha
      exact ⟨b, mem_cons_of_mem _ hb, hab⟩

end ZilkerSdk.Lib
