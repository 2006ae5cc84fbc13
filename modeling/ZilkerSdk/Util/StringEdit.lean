import ZilkerSdk.Lib.Block

/-!
# Editing a string in place

Model of `stringEdit` of `libs/util/c/src/stringUtils.c`, which replaces `removeCount` characters
of a string on the heap by a new text.  The string's rest is moved inside its block, and the sizes
decide from where.  Sizes are natural numbers: the two strings lie in one address space, so that
no sum of their lengths wraps.

When the new string ends inside the removed part, and the new text is longer than half of that
part, the move does not begin at the rest.
-/

namespace ZilkerSdk.Util

open Lib List

/-! ## The code -/

/-- The character that ends a string. -/
def nul : Char := Char.ofNat 0

def strlen (block : List Char) : Nat := (block.takeWhile (· != nul)).length

/-- The characters of a string; none of them ends it. -/
structure Text where
  chars : List Char
  noNul : nul ∉ chars

/-- The string in memory. -/
def Text.block (text : Text) : List Char := text.chars ++ [nul]

/-- The characters of a text that may be NULL. -/
def charsOf (text : Option Text) : List Char := text.elim [] Text.chars

/-- The part of `stringEdit` between the checks and the copy of the new text; `fill` is what
`realloc` leaves in new cells. -/
def moveDisplacedPart (fill : Char) (str : List Char)
    (origSize newSize offset removeCount replacementSize : Nat) : Option (List Char) :=
  let removeCharsFromNew :=
    if offset + removeCount > newSize then removeCount - (origSize - newSize) else removeCount
  if newSize > origSize then
    let shift := newSize - origSize + removeCharsFromNew
    let displacedPartSize := origSize - offset - removeCharsFromNew
    blockMove (blockResize fill str (newSize + 1)) (offset + shift) (offset + removeCharsFromNew)
      displacedPartSize
  else if newSize < origSize then
    let shift := if replacementSize < removeCharsFromNew then replacementSize else 0
    let shrinkBy :=
      if origSize - newSize < removeCharsFromNew then removeCharsFromNew else origSize - newSize
    let displacedPartSize := origSize - offset - shrinkBy
    (blockMove str (offset + shift) (offset + shrinkBy) displacedPartSize).map
      (blockResize fill · (newSize + 1))
  else some str

/-- `stringEdit`: `some none` is NULL, and no result an access outside a block. -/
def stringEdit (fill : Char) (str : Option (List Char)) (offset removeCount : Nat)
    (newText : Option (List Char)) : Option (Option (List Char)) :=
  match str with
  | none => some none
  | some str =>
    let origSize := strlen str
    if offset > origSize then some none
    else if removeCount > origSize then some none
    else if offset + removeCount > origSize then some none
    else
      let replacementSize := (newText.map strlen).getD 0
      let newSize := origSize - removeCount + replacementSize
      Option.map some do
        let str ← moveDisplacedPart fill str origSize newSize offset removeCount replacementSize
        let str ← newText.elim (some str) fun newText =>
          (blockRead newText 0 replacementSize).bind (blockWrite str offset)
        blockWrite str newSize [nul]

/-! ## What it returns -/

theorem strlen_block (text : Text) : strlen text.block = text.chars.length := by
  have hall : ∀ c ∈ text.chars, (c != nul) = true := by
    intro c hc
    exact bne_iff_ne.mpr fun heq => text.noNul (heq ▸ hc)
  rw [strlen, Text.block, takeWhile_append_of_pos hall]
  simp

/-- The new string ends inside the removed part, and the new text is longer than half of it. -/
def Overshoots (s : List Char) (offset removeCount replacementSize : Nat) : Prop :=
  replacementSize < removeCount ∧ removeCount < 2 * replacementSize ∧
    s.length - removeCount + replacementSize < offset + removeCount

instance (s : List Char) (offset removeCount replacementSize : Nat) :
    Decidable (Overshoots s offset removeCount replacementSize) :=
  inferInstanceAs (Decidable (_ ∧ _))

/-- What then stands behind the new text: of the moved characters, and of those that stand behind
them, the new text covers the first ones. -/
def overshot (s : List Char) (offset removeCount replacementSize : Nat) : List Char :=
  ((s.drop (offset + replacementSize) ++ s.drop (s.length - replacementSize)).drop
    replacementSize).take (s.length - (offset + removeCount))

variable {s m : List Char} {dest src o r p newSize : Nat}

theorem take_moved (l : List Char) (hm : m.take s.length = s) (ho : o ≤ s.length)
    (hdest : dest ≤ m.length) (hle : o ≤ dest) : (m.take dest ++ l).take o = s.take o := by
  rw [take_append_of_le_length (by rwa [length_take_of_le hdest]), take_take,
    Nat.min_eq_left hle, ← hm, take_take, Nat.min_eq_left ho]

/-- When the moved part ends where the string is to end, the rest is in its place. -/
theorem drop_moved (l : List Char) (hdest : dest ≤ m.length)
    (hend : dest + (s.length - src) = newSize) (hr : o + r + dest = o + p + src)
    (hp : dest ≤ o + p) :
    ((m.take dest ++ (s.drop src ++ l)).take newSize).drop (o + p) = s.drop (o + r) := by
  have hlength : (m.take dest).length = dest := length_take_of_le hdest
  have hkept : (m.take dest ++ (s.drop src ++ l)).take newSize = m.take dest ++ s.drop src := by
    rw [← append_assoc]
    exact take_left' (by rw [length_append, hlength, length_drop, hend])
  rw [hkept, ← Nat.add_sub_cancel' hp, ← drop_drop, drop_left' hlength, drop_drop]
  congr 1
  omega

theorem drop_overshot (hover : Overshoots s o r p) (h : o + r ≤ s.length)
    (hnew : newSize = s.length - r + p) :
    (((s ++ [nul]).take o ++ (s.drop (o + p) ++ (s ++ [nul]).drop (s.length - p))).take
      newSize).drop (o + p) = overshot s o r p := by
  obtain ⟨hshort, hlong, -⟩ := hover
  have hlength : ((s ++ [nul]).take o).length = o := length_take_of_le (by simp; omega)
  have hend : (s ++ [nul]).drop (s.length - p) = s.drop (s.length - p) ++ [nul] :=
    drop_append_of_le_length (Nat.sub_le ..)
  have hmoved : (s.drop (o + p) ++ s.drop (s.length - p)).length = s.length - o := by
    simp
    omega
  rw [drop_take, ← drop_drop, drop_left' hlength, hend, ← append_assoc,
    drop_append_of_le_length (by omega),
    take_append_of_le_length (by rw [length_drop]; omega), overshot]
  congr 1
  omega

/-- How far the rest moves when the string shrinks. -/
theorem moveDisplacedPart_shrink (fill : Char) (h : o + r ≤ s.length) (hshrink : p < r)
    (hnew : newSize = s.length - r + p) :
    ∃ shift shrinkBy, moveDisplacedPart fill m s.length newSize o r p =
        (blockMove m (o + shift) (o + shrinkBy) (s.length - o - shrinkBy)).map
          (blockResize fill · (newSize + 1)) ∧
      shift ≤ shrinkBy ∧ shrinkBy ≤ r ∧
      if Overshoots s o r p then shift = 0 ∧ shrinkBy = p else shift + r = shrinkBy + p := by
  unfold moveDisplacedPart
  rw [if_neg (show ¬ newSize > s.length by omega), if_pos (show newSize < s.length by omega)]
  refine ⟨_, _, rfl, ?_⟩
  unfold Overshoots
  split_ifs <;> omega

/-- Where the rest is when the new text is copied. -/
theorem moveDisplacedPart_eq (fill : Char) (h : o + r ≤ s.length)
    (hnew : newSize = s.length - r + p) :
    ∃ m, moveDisplacedPart fill (s ++ [nul]) s.length newSize o r p = some m ∧
      m.length = newSize + 1 ∧ m.take o = s.take o ∧ (m.take newSize).drop (o + p) =
        if Overshoots s o r p then overshot s o r p else s.drop (o + r) := by
  have hlength : (s ++ [nul]).length = s.length + 1 := length_append
  have hs : (s ++ [nul]).take s.length = s := take_left
  have hfirst : (s ++ [nul]).take o = s.take o := take_append_of_le_length (by omega)
  obtain hgrow | rfl | hshrink := Nat.lt_trichotomy r p
  · -- the string grows, and the block with it
    have hdef : moveDisplacedPart fill (s ++ [nul]) s.length newSize o r p =
        blockMove (blockResize fill (s ++ [nul]) (newSize + 1)) (o + p) (o + r)
          (s.length - (o + r)) := by
      rw [moveDisplacedPart, if_neg (by omega : ¬ o + r > newSize), if_pos (by omega),
        show newSize - s.length + r = p by omega, Nat.sub_sub]
    have hresize := length_blockResize fill (s ++ [nul]) (newSize + 1)
    have hkept := take_blockResize fill (n := newSize + 1) (b := s.length) (m := s ++ [nul])
      (by omega) (by omega)
    rw [blockMove_eq (hkept.trans hs) (by omega) (by omega)] at hdef
    refine ⟨_, hdef, ?_, ?_, ?_⟩
    · simp
      omega
    · exact take_moved _ (hkept.trans hs) (by omega) (by omega) (by omega)
    · rw [if_neg (by unfold Overshoots; omega)]
      exact drop_moved _ (by omega) (by omega) (by omega) (by omega)
  · obtain rfl : newSize = s.length := by omega
    refine ⟨s ++ [nul], by simp [moveDisplacedPart], hlength, hfirst, ?_⟩
    rw [if_neg (by unfold Overshoots; omega), hs]
  · obtain ⟨shift, shrinkBy, hdef, hshift, hby, hcases⟩ :=
      moveDisplacedPart_shrink (m := s ++ [nul]) fill h hshrink hnew
    rw [blockMove_eq hs (by omega) (by omega), Option.map_some] at hdef
    refine ⟨_, hdef, length_blockResize .., ?_, ?_⟩
    · rw [take_blockResize fill (by simp; omega) (by omega)]
      exact take_moved _ hs (by omega) (by omega) (by omega)
    · rw [take_blockResize fill (by simp; omega) (by omega)]
      split at hcases
      · -- what was moved ends before the string does
        rename_i hover
        obtain ⟨rfl, rfl⟩ := hcases
        rw [if_pos hover, ← drop_overshot hover h hnew,
          show o + 0 + (s.length - o - shrinkBy) = s.length - shrinkBy by omega]
        rfl
      · rename_i hfits
        rw [if_neg hfits]
        exact drop_moved _ (by omega) (by omega) (by omega) (by omega)

/-- The last steps write the new text and the terminator. -/
theorem overwrite_eq {text : List Char} (hm : m.length = newSize + 1)
    (hfits : o + text.length ≤ newSize) :
    (blockWrite m o text).bind (blockWrite · newSize [nul]) =
      some (m.take o ++ text ++ (m.take newSize).drop (o + text.length) ++ [nul]) := by
  have hlength : (m.take o ++ text).length = o + text.length := by
    rw [length_append, length_take_of_le (by omega)]
  have hwrite : blockWrite m o text = some (m.take o ++ text ++ m.drop (o + text.length)) :=
    if_pos (by omega)
  have hend : newSize + 1 = (m.take o ++ text ++ m.drop (o + text.length)).length :=
    hm.symm.trans (length_blockWrite hwrite).symm
  rw [hwrite, Option.bind_some, blockWrite, length_singleton, if_pos (Nat.le_of_eq hend), hend,
    drop_length, append_nil, take_append, hlength, take_of_length_le (by omega),
    drop_take]

/-- What an edit is for. -/
def splice (s : List Char) (offset removeCount : Nat) (newText : List Char) :
    Option (List Char) :=
  if offset + removeCount ≤ s.length then
    some (s.take offset ++ newText ++ s.drop (offset + removeCount))
  else none

/-- The edits that splice the new text in, or return NULL if there is less to remove than
`removeCount` characters: those that do not overshoot, and those where what stands behind the new
text looks like the rest. -/
theorem stringEdit_splices_iff (fill : Char) (s : Text) (offset removeCount : Nat)
    (newText : Option Text) :
    stringEdit fill (some s.block) offset removeCount (newText.map Text.block) =
        some ((splice s.chars offset removeCount (charsOf newText)).map (· ++ [nul])) ↔
      (offset + removeCount ≤ s.chars.length →
        Overshoots s.chars offset removeCount (charsOf newText).length →
        overshot s.chars offset removeCount (charsOf newText).length =
          s.chars.drop (offset + removeCount)) := by
  unfold stringEdit splice
  dsimp only
  rw [strlen_block]
  by_cases h : offset + removeCount ≤ s.chars.length
  · have hsize : ((newText.map Text.block).map strlen).getD 0 = (charsOf newText).length := by
      cases newText with
      | none => rfl
      | some newText => exact strlen_block newText
    obtain ⟨m, hmove, hm, htake, hrest⟩ :=
      moveDisplacedPart_eq fill (p := (charsOf newText).length) h rfl
    -- without a new text nothing is copied into the gap
    have hcopy : ((newText.map Text.block).elim (some m) fun text =>
        (blockRead text 0 (charsOf newText).length).bind (blockWrite m offset)) =
        blockWrite m offset (charsOf newText) := by
      cases newText with
      | none => 
        rw [blockWrite, if_pos (by simp [charsOf]; omega)]
        simp [charsOf]
      | some text =>
        have hread : blockRead text.block 0 text.chars.length = some text.chars := by
          simp [blockRead, Text.block]
        exact congrArg (·.bind (blockWrite m offset)) hread
    have hwrite := overwrite_eq hm (show offset + (charsOf newText).length ≤ _ by omega)
    rw [htake, hrest] at hwrite
    rw [if_neg (by omega), if_neg (by omega), if_neg (by omega), if_pos h, hsize, Text.block, hmove]
    simp only [Option.bind_eq_bind, Option.bind_some, hcopy, hwrite, Option.map_some,
      Option.some.injEq, append_cancel_right_eq, append_cancel_left_eq, h, true_imp_iff,
      ite_eq_right_iff]
  · refine iff_of_true ?_ fun h' => absurd h' h
    split_ifs <;> first | rfl | omega

/-- Of `"aXXXXXb"` with `"YYY"` for the characters between, the `b` is lost. -/
theorem rest_lost :
    stringEdit nul (some "aXXXXXb\x00".toList) 1 5 (some "YYY\x00".toList) =
        some (some "aYYYX\x00".toList) ∧
      splice "aXXXXXb".toList 1 5 "YYY".toList = some "aYYYb".toList := by
  decide

end ZilkerSdk.Util
