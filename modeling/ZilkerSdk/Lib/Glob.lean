import Mathlib.Data.List.Infix

/-!
# Glob patterns

A pattern is a list of pieces: a symbol that stands for itself, or a gap that any string
fills.  `Matches` is about the whole text, `Occurs` about some part of it, which is what a
search without anchors looks for.
-/

namespace ZilkerSdk.Lib.Glob

open List

variable {α : Type*}

/-- A piece of a pattern. -/
inductive Piece (α : Type*) where
  | one (a : α)
  | gap
deriving DecidableEq

/-- The whole text is an instance of the pattern. -/
def Matches : List (Piece α) → List α → Prop
  | [], text => text = []
  | .one a :: pattern, text => ∃ rest, text = a :: rest ∧ Matches pattern rest
  | .gap :: pattern, text => ∃ skipped rest, text = skipped ++ rest ∧ Matches pattern rest

/-- Some part of the text is an instance of the pattern. -/
def Occurs (pattern : List (Piece α)) (text : List α) : Prop :=
  ∃ before part after, text = before ++ (part ++ after) ∧ Matches pattern part

/-- A matcher that runs: a gap tries every suffix. -/
def isMatch [DecidableEq α] : List (Piece α) → List α → Bool
  | [], text => text.isEmpty
  | .one _ :: _, [] => false
  | .one a :: pattern, b :: rest => a = b && isMatch pattern rest
  | .gap :: pattern, text => text.tails.any (isMatch pattern)

theorem isMatch_iff [DecidableEq α] (pattern : List (Piece α)) (text : List α) :
    isMatch pattern text = true ↔ Matches pattern text := by
  induction pattern generalizing text with
  | nil => simp [isMatch, Matches]
  | cons piece pattern ih =>
    cases piece with
    | one a =>
      cases text with
      | nil => simp [isMatch, Matches]
      | cons b rest =>
        simp only [isMatch, Matches, Bool.and_eq_true, decide_eq_true_eq, ih, cons.injEq]
        constructor
        · intro ⟨hab, hrest⟩
          exact ⟨rest, ⟨hab.symm, rfl⟩, hrest⟩
        · intro ⟨_, ⟨hab, hrest⟩, hmatch⟩
          exact ⟨hab.symm, hrest ▸ hmatch⟩
    | gap =>
      simp only [isMatch, Matches, any_eq_true, mem_tails, ih]
      constructor
      · intro ⟨rest, ⟨skipped, hsplit⟩, hmatch⟩
        exact ⟨skipped, rest, hsplit.symm, hmatch⟩
      · intro ⟨skipped, rest, hsplit, hmatch⟩
        exact ⟨rest, ⟨skipped, hsplit.symm⟩, hmatch⟩

instance [DecidableEq α] (pattern : List (Piece α)) (text : List α) :
    Decidable (Matches pattern text) :=
  decidable_of_iff _ (isMatch_iff pattern text)

/-- A pattern made of two is matched by texts made of two. -/
theorem matches_append (pattern pattern' : List (Piece α)) (text : List α) :
    Matches (pattern ++ pattern') text ↔
      ∃ left right, text = left ++ right ∧ Matches pattern left ∧ Matches pattern' right := by
  -- induction on the first pattern; a gap moves the cut by what it skips
  induction pattern generalizing text with
  | nil =>
    constructor
    · intro h
      exact ⟨[], text, rfl, rfl, h⟩
    · intro ⟨left, right, hsplit, hleft, hright⟩
      rw [hsplit, show left = [] from hleft]
      exact hright
  | cons piece pattern ih =>
    cases piece with
    | one a =>
      simp only [cons_append, Matches, ih]
      constructor
      · intro ⟨_, htext, left, right, hsplit, hleft, hright⟩
        exact ⟨a :: left, right, by rw [htext, hsplit]; rfl, ⟨left, rfl, hleft⟩, hright⟩
      · intro ⟨_, right, hsplit, ⟨left, hleft, hmatch⟩, hright⟩
        exact ⟨left ++ right, by rw [hsplit, hleft]; rfl, left, right, rfl, hmatch, hright⟩
    | gap =>
      simp only [cons_append, Matches, ih]
      constructor
      · intro ⟨skipped, _, htext, left, right, hsplit, hleft, hright⟩
        refine ⟨skipped ++ left, right, ?_, ⟨skipped, left, rfl, hleft⟩, hright⟩
        rw [htext, hsplit, append_assoc]
      · intro ⟨_, right, hsplit, ⟨skipped, left, hleft, hmatch⟩, hright⟩
        refine ⟨skipped, left ++ right, ?_, left, right, rfl, hmatch, hright⟩
        rw [hsplit, hleft, append_assoc]

theorem matches_gap (text : List α) : Matches [.gap] text :=
  ⟨text, [], by simp, rfl⟩

theorem occurs_iff_matches (pattern : List (Piece α)) (text : List α) :
    Occurs pattern text ↔ Matches (.gap :: (pattern ++ [.gap])) text := by
  simp only [Occurs, Matches, matches_append]
  constructor
  · intro ⟨before, part, after, htext, hmatch⟩
    exact ⟨before, part ++ after, htext, part, after, rfl, hmatch, matches_gap after⟩
  · intro ⟨before, _, htext, part, after, hsplit, hmatch, _⟩
    exact ⟨before, part, after, by rw [htext, hsplit], hmatch⟩

/-- Where the pattern has gaps at its ends, they take what is around the part. -/
theorem occurs_iff_matches_of_gaps {pattern : List (Piece α)} (text : List α)
    (hfirst : pattern.head? = some .gap) (hlast : pattern.getLast? = some .gap) :
    Occurs pattern text ↔ Matches pattern text := by
  constructor
  · intro ⟨before, part, after, htext, hmatch⟩
    obtain ⟨inner, rfl⟩ := head?_eq_some_iff.mp hfirst
    rcases eq_nil_or_concat' inner with rfl | ⟨middle, last, rfl⟩
    · exact matches_gap text
    · rw [← cons_append, getLast?_concat] at hlast
      cases hlast
      -- the part occurs around an instance of the pattern between the gaps
      obtain ⟨before', part', after', hpart, hinner⟩ := (occurs_iff_matches middle part).mpr hmatch
      rw [← occurs_iff_matches]
      refine ⟨before ++ before', part', after' ++ after, ?_, hinner⟩
      rw [htext, hpart]
      simp only [append_assoc]
  · intro hmatch
    exact ⟨[], text, [], by simp, hmatch⟩

end ZilkerSdk.Lib.Glob
