import Mathlib.Data.List.Basic

/-!
# Patterns of path segments

A small library of patterns for paths.  A path is a list of texts, a pattern a list of
literals and named wildcards.  Texts are compared through a map `fold`, so that literals
match up to letter case, for instance.

A table of patterns is searched segment by segment, literals first and without
backtracking.  `under` is what such a search keeps of the table after one segment, and
`Unshadowed` says that the search keeps a given pattern to the end.
-/

namespace ZilkerSdk.Lib

variable {τ κ η : Type*}

inductive Segment (τ : Type*) where
  | literal (text : τ)
  | wildcard (name : τ)
  deriving DecidableEq

abbrev Pattern (τ : Type*) := List (Segment τ)

/-- Segments in the same place: literals with the same folded text, or wildcards. -/
inductive Place (κ : Type*) where
  | literal (folded : κ)
  | wildcard
  deriving DecidableEq

section

variable [DecidableEq κ] (fold : τ → κ)

def Segment.place : Segment τ → Place κ
  | .literal text => .literal (fold text)
  | .wildcard _ => .wildcard

/-- As many segments, and the same text at every literal. -/
def Matches : Pattern τ → List τ → Prop
  | [], [] => True
  | .literal text :: p, u :: us => fold text = fold u ∧ Matches p us
  | .wildcard _ :: p, _ :: us => Matches p us
  | _, _ => False

/-- The wildcards and the segments at their places. -/
def bindings : Pattern τ → List τ → List (τ × τ)
  | .wildcard name :: p, u :: us => (name, u) :: bindings p us
  | .literal _ :: p, _ :: us => bindings p us
  | _, _ => []

def wildcardNames : Pattern τ → List τ
  | .wildcard name :: p => name :: wildcardNames p
  | .literal _ :: p => wildcardNames p
  | [] => []

/-- The bindings without those of a wildcard to its own name. -/
def caught : Pattern τ → List τ → List (τ × τ)
  | .wildcard name :: p, u :: us =>
    if fold name = fold u then caught p us else (name, u) :: caught p us
  | .literal _ :: p, _ :: us => caught p us
  | _, _ => []

/-- No wildcard stands for its own name. -/
def Unspelled : Pattern τ → List τ → Prop
  | .wildcard name :: p, u :: us => fold name ≠ fold u ∧ Unspelled p us
  | .literal _ :: p, _ :: us => Unspelled p us
  | _, _ => True

/-- The pattern begins with a literal that is the text. -/
def beginsWith (u : τ) : Pattern τ → Bool
  | .literal text :: _ => fold text = fold u
  | _ => false

/-- The rests of the patterns whose first segment is in the place. -/
def under (place : Place κ) (table : List (Pattern τ × η)) : List (Pattern τ × η) :=
  table.filterMap fun entry =>
    match entry.1 with
    | segment :: rest => if segment.place fold = place then some (rest, entry.2) else none
    | [] => none

/-- Where the pattern has a wildcard, no pattern of the table that agrees with it up to there
has a literal that is the segment. -/
def Unshadowed : List (Pattern τ × η) → Pattern τ → List τ → Prop
  | table, .wildcard _ :: p, u :: us =>
    (∀ entry ∈ table, beginsWith fold u entry.1 = false) ∧
      Unshadowed (under fold .wildcard table) p us
  | table, .literal text :: p, _ :: us => Unshadowed (under fold (.literal (fold text)) table) p us
  | _, _, _ => True

/-- In every place the patterns share, a literal of one is not the name of a wildcard of the
other, and wildcards whose names fold to the same have the same name. -/
def Compatible : Pattern τ → Pattern τ → Prop
  | .literal text :: p, .literal text' :: q => fold text = fold text' → Compatible p q
  | .wildcard name :: p, .wildcard name' :: q =>
    (fold name = fold name' → name = name') ∧ Compatible p q
  | .literal text :: _, .wildcard name :: _ => fold text ≠ fold name
  | .wildcard name :: _, .literal text :: _ => fold text ≠ fold name
  | _, _ => True

variable {fold}

theorem mem_under {place : Place κ} {table : List (Pattern τ × η)} {p : Pattern τ} {x : η} :
    (p, x) ∈ under fold place table ↔
      ∃ segment : Segment τ, segment.place fold = place ∧ (segment :: p, x) ∈ table := by
  simp only [under, List.mem_filterMap, Prod.exists]
  constructor
  · rintro ⟨q, y, hmem, heq⟩
    cases q with
    | nil => cases heq
    | cons segment rest =>
      obtain ⟨hplace, ⟨⟩⟩ := Option.ite_none_right_eq_some.mp heq
      exact ⟨segment, hplace, hmem⟩
  · rintro ⟨segment, hplace, hmem⟩
    exact ⟨segment :: p, x, hmem, by simp [hplace]⟩

theorem under_append_cons (place : Place κ) (table : List (Pattern τ × η)) (segment : Segment τ)
    (p : Pattern τ) (x : η) :
    under fold place (table ++ [(segment :: p, x)]) =
      under fold place table ++ if segment.place fold = place then [(p, x)] else [] := by
  by_cases h : segment.place fold = place <;> simp [under, h]

theorem names_bindings (p : Pattern τ) (us : List τ) :
    ((bindings p us).map Prod.fst).Sublist (wildcardNames p) := by
  fun_induction bindings p us with
  | case1 name p u us ih => exact ih.cons_cons name
  | case2 text p u us ih => exact ih
  | case3 p us h₁ h₂ => exact List.nil_sublist _

theorem caught_sublist (p : Pattern τ) (us : List τ) :
    (caught fold p us).Sublist (bindings p us) := by
  fun_induction bindings p us with
  | case1 name p u us ih =>
    unfold caught
    split
    · exact ih.cons _
    · exact ih.cons_cons _
  | case2 text p u us ih => exact ih
  | case3 p us h₁ h₂ => simp [caught]

/-- A search that takes a segment for the name of a wildcard misses a binding. -/
theorem caught_eq_bindings_iff (p : Pattern τ) (us : List τ) :
    caught fold p us = bindings p us ↔ Unspelled fold p us := by
  fun_induction bindings p us with
  | case1 name p u us ih =>
    unfold caught Unspelled
    split
    · rename_i hspelled
      refine iff_of_false (fun heq => ?_) (fun h => h.1 hspelled)
      have hlength := congrArg List.length heq
      have hle := (@caught_sublist _ _ _ fold p us).length_le
      rw [List.length_cons] at hlength
      omega
    · rename_i hspelled
      refine ⟨fun heq => ⟨hspelled, ih.mp (List.cons.inj heq).2⟩, fun h => ?_⟩
      exact congrArg _ (ih.mpr h.2)
  | case2 text p u us ih => exact ih
  | case3 p us h₁ h₂ => simp [caught, Unspelled]

/-! ## Decidability -/

variable [DecidableEq τ] (fold)

instance Matches.decidable : (p : Pattern τ) → (us : List τ) → Decidable (Matches fold p us)
  | [], [] => isTrue trivial
  | .literal _ :: p, _ :: us =>
    have := Matches.decidable p us
    inferInstanceAs (Decidable (_ ∧ _))
  | .wildcard _ :: p, _ :: us => Matches.decidable p us
  | [], _ :: _ | .literal _ :: _, [] | .wildcard _ :: _, [] => isFalse not_false

instance Unspelled.decidable : (p : Pattern τ) → (us : List τ) → Decidable (Unspelled fold p us)
  | .wildcard _ :: p, _ :: us =>
    have := Unspelled.decidable p us
    inferInstanceAs (Decidable (_ ∧ _))
  | .literal _ :: p, _ :: us => Unspelled.decidable p us
  | [], _ | .literal _ :: _, [] | .wildcard _ :: _, [] => isTrue trivial

instance Unshadowed.decidable : (table : List (Pattern τ × η)) → (p : Pattern τ) → (us : List τ) →
    Decidable (Unshadowed fold table p us)
  | table, .wildcard _ :: p, _ :: us =>
    have := Unshadowed.decidable (under fold .wildcard table) p us
    inferInstanceAs (Decidable (_ ∧ _))
  | table, .literal text :: p, _ :: us =>
    Unshadowed.decidable (under fold (.literal (fold text)) table) p us
  | _, [], _ | _, .literal _ :: _, [] | _, .wildcard _ :: _, [] => isTrue trivial

instance Compatible.decidable : (p q : Pattern τ) → Decidable (Compatible fold p q)
  | .literal _ :: p, .literal _ :: q =>
    have := Compatible.decidable p q
    inferInstanceAs (Decidable (_ → _))
  | .wildcard _ :: p, .wildcard _ :: q =>
    have := Compatible.decidable p q
    inferInstanceAs (Decidable ((_ → _) ∧ _))
  | .literal _ :: _, .wildcard _ :: _ | .wildcard _ :: _, .literal _ :: _ =>
    inferInstanceAs (Decidable (_ ≠ _))
  | [], _ | .literal _ :: _, [] | .wildcard _ :: _, [] => isTrue trivial

end

end ZilkerSdk.Lib
