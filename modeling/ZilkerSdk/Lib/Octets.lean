import Mathlib.Algebra.Group.Nat.Defs
import Mathlib.Data.List.Induction

/-!
# Numbers as bytes

Numbers in network byte order, and variables that are set to zero and then filled from the front
with fewer bytes than they have.
-/

namespace ZilkerSdk.Lib

open List

/-! ## Network byte order -/

/-- The number with these bytes, the most significant first. -/
def ofBytes (bs : List UInt8) : Nat := bs.foldl (fun n b => n * 256 + b.toNat) 0

/-- The last `w` bytes of a number, the most significant first. -/
def toBytes : Nat → Nat → List UInt8
  | 0, _ => []
  | w + 1, n => toBytes w (n / 256) ++ [UInt8.ofNat n]

@[simp] theorem length_toBytes (w n : Nat) : (toBytes w n).length = w := by
  induction w generalizing n with
  | zero => rfl
  | succ w ih => simp [toBytes, ih]

@[simp] theorem ofBytes_nil : ofBytes [] = 0 := rfl

theorem ofBytes_concat (bs : List UInt8) (b : UInt8) :
    ofBytes (bs ++ [b]) = ofBytes bs * 256 + b.toNat := by
  simp [ofBytes]

theorem ofBytes_lt (bs : List UInt8) : ofBytes bs < 256 ^ bs.length := by
  induction bs using reverseRecOn with
  | nil => decide
  | append_singleton bs b ih =>
    have hb : b.toNat < 256 := b.toNat_lt
    rw [ofBytes_concat, length_append, length_singleton, Nat.pow_succ]
    omega

variable {w : Nat} {bs : List UInt8}

theorem ofBytes_toBytes {n : Nat} (h : n < 256 ^ w) : ofBytes (toBytes w n) = n := by
  induction w generalizing n with
  | zero =>
    have : n = 0 := by simpa using h
    simp [toBytes, this]
  | succ w ih =>
    have hdiv : n / 256 < 256 ^ w := by
      omega
    rw [toBytes, ofBytes_concat, ih hdiv, UInt8.toNat_ofNat']
    omega

theorem toBytes_ofBytes (bs : List UInt8) : toBytes bs.length (ofBytes bs) = bs := by
  induction bs using reverseRecOn with
  | nil => rfl
  | append_singleton bs b ih =>
    have hb : b.toNat < 256 := b.toNat_lt
    have hdiv : (ofBytes bs * 256 + b.toNat) / 256 = ofBytes bs := by omega
    rw [length_append, length_singleton, toBytes, ofBytes_concat, hdiv, ih]
    congr 2
    apply UInt8.toNat_inj.mp
    rw [UInt8.toNat_ofNat']
    omega

/-- Texts of one length are the same if they make the same number. -/
theorem ofBytes_inj {as : List UInt8} (hlength : as.length = bs.length) :
    ofBytes as = ofBytes bs ↔ as = bs := by
  constructor
  · intro h
    rw [← toBytes_ofBytes as, ← toBytes_ofBytes bs, hlength, h]
  · rintro rfl
    rfl

theorem ofBytes_eq_zero_iff : ofBytes bs = 0 ↔ ∀ b ∈ bs, b = 0 := by
  induction bs using reverseRecOn with
  | nil => simp
  | append_singleton bs b ih =>
    have hb : b = 0 ↔ b.toNat = 0 := by
      rw [← UInt8.toNat_inj]
      rfl
    rw [ofBytes_concat]
    simp only [mem_append, mem_singleton, or_imp, forall_and, forall_eq, ← ih, hb]
    omega

/-! ## Variables that are filled from the front -/

/-- A variable of `w` bytes that was zero and has been filled with these. -/
def pad (w : Nat) (bs : List UInt8) : List UInt8 := bs ++ List.replicate (w - bs.length) 0

theorem length_pad (h : bs.length ≤ w) : (pad w bs).length = w := by
  simp [pad]
  omega

theorem eq_replicate_of_zeros (h : ∀ b ∈ bs, b = 0) : bs = List.replicate bs.length 0 :=
  eq_replicate_iff.mpr ⟨rfl, h⟩

/-- The variable holds the text exactly when the bytes left out are zero. -/
theorem pad_take_eq_iff (bs : List UInt8) (k : Nat) :
    pad bs.length (bs.take k) = bs ↔ ∀ b ∈ bs.drop k, b = 0 := by
  have hsplit : bs.take k ++ bs.drop k = bs := take_append_drop k bs
  have hlength : bs.length - (bs.take k).length = (bs.drop k).length := by
    simp
    omega
  rw [pad, hlength]
  constructor
  · intro h b hb
    have htail : replicate (bs.drop k).length 0 = bs.drop k :=
      append_cancel_left (h.trans hsplit.symm)
    rw [← htail] at hb
    exact eq_of_mem_replicate hb
  · intro h
    rw [← eq_replicate_of_zeros h, hsplit]

/-- A variable that is filled with zeros holds zeros. -/
theorem pad_of_zeros (hlength : bs.length ≤ w) (h : ∀ b ∈ bs, b = 0) :
    pad w bs = List.replicate w 0 := by
  rw [pad, eq_replicate_of_zeros h, length_replicate, replicate_append_replicate,
    Nat.add_sub_cancel' hlength]

theorem ofBytes_pad_eq_zero_iff : ofBytes (pad w bs) = 0 ↔ ∀ b ∈ bs, b = 0 := by
  rw [ofBytes_eq_zero_iff]
  constructor
  · intro h b hb
    exact h b (mem_append_left _ hb)
  · intro h b hb
    rcases mem_append.mp hb with hb | hb
    · exact h b hb
    · exact eq_of_mem_replicate hb

/-- A text that is read back from a place before it, where zeros stand, is all zeros. -/
theorem eq_zero_of_shifted {rest : List UInt8} {z k : Nat} (hz : 0 < z)
    (h : pad bs.length ((List.replicate z 0 ++ bs ++ rest).take k) = bs) : ∀ b ∈ bs, b = 0 := by
  -- the byte at `j` is one that stands before it
  have hbyte : ∀ j (hj : j < bs.length), bs[j] = 0 := by
    intro j
    induction j using Nat.strongRecOn with
    | ind j ih =>
      intro hj
      have hget : (pad bs.length ((replicate z 0 ++ bs ++ rest).take k))[j]? = some bs[j] := by
        rw [h]
        exact getElem?_eq_getElem hj
      rw [pad, getElem?_append] at hget
      split at hget
      · rename_i hlt
        rw [getElem?_take_of_lt (by simp at hlt; omega), append_assoc, getElem?_append] at hget
        split at hget
        · rw [getElem?_replicate] at hget
          split at hget
          · exact (Option.some.inj hget).symm
          · cases hget
        · rename_i hge
          simp only [length_replicate, Nat.not_lt] at hge
          have hprev : j - z < bs.length := by omega
          rw [length_replicate, getElem?_append_left hprev, getElem?_eq_getElem hprev] at hget
          rw [← Option.some.inj hget]
          exact ih (j - z) (by omega) hprev
      · rw [getElem?_replicate] at hget
        split at hget
        · exact (Option.some.inj hget).symm
        · cases hget
  intro b hb
  obtain ⟨j, hj, rfl⟩ := getElem_of_mem hb
  exact hbyte j hj

end ZilkerSdk.Lib
