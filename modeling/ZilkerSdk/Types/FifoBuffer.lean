import Mathlib.Algebra.Group.Int.Defs
import Mathlib.Algebra.Group.Nat.Defs
import ZilkerSdk.Lib.Block
import ZilkerSdk.Lib.Run

/-!
# The FIFO byte buffer

Model of `libs/types/c/src/icFifoBuffer.c`: one heap block with a read and a
write position, grown by `realloc` and compacted by `memcpy`.

```
 top        readPos                       writePos      size
 |          |                             |             |
 :::::::::::------------------------------...............
```

All counters are `uint32_t`, so sums and differences are taken modulo `2^32`,
and `ensureCapacity` keeps what is lacking in an `int`.  An access outside the
block is undefined behaviour and has no result.
-/

namespace ZilkerSdk.Types.FifoBuffer

open Lib

/-! ## The structure and its arithmetic -/

/-- `struct _icFifoBuff`; `top` is the content of the allocated block. -/
structure IcFifoBuff where
  top : List UInt8
  readPos : Nat
  writePos : Nat
  size : Nat
  chunkSize : Nat
deriving DecidableEq, Repr

def defaultBufferSize : Nat := 1024

/-- Subtraction of `uint32_t` values. -/
def sub32 (a b : Nat) : Nat := (a + 2 ^ 32 - b) % 2 ^ 32

/-- Conversion of a `uint32_t` to `int`. -/
def toInt32 (a : Nat) : Int := if a < 2 ^ 31 then a else (a : Int) - 2 ^ 32

/-! ## Internal functions -/

def fifoBuffGetPushAvailable (b : IcFifoBuff) : Nat := sub32 b.size b.writePos

def fifoBuffGetPullAvailable (b : IcFifoBuff) : Nat := sub32 b.writePos b.readPos

/-- More than half of the block has been consumed. -/
def needsCompress (b : IcFifoBuff) : Bool := decide (b.size > 0) && decide (b.readPos > b.size / 2)

/-- Move the unread data to the front of the block.  The source calls `memcpy`,
which is undefined when the two areas overlap. -/
def compact (b : IcFifoBuff) : Option IcFifoBuff :=
  let ptrLen := sub32 b.writePos b.readPos
  if ptrLen ≤ b.readPos then do
    let data ← blockRead b.top b.readPos ptrLen
    let top ← blockWrite b.top 0 data
    some { b with top := top, readPos := 0, writePos := ptrLen }
  else none

/-- Make room for `needSize` bytes; `reallocOk` tells whether a `realloc` made
here succeeds.  Returns the buffer and the space available in it. -/
def ensureCapacity (reallocOk : Bool) (b : IcFifoBuff) (needSize : Nat) :
    Option (IcFifoBuff × Nat) :=
  let avail := fifoBuffGetPushAvailable b
  -- `int`: from 2^31 on the difference is negative, and nothing is done
  let lacking := toInt32 (sub32 needSize avail)
  if lacking > 0 then
    if needsCompress b then
      -- the source returns right after the compaction, whatever it freed
      (compact b).map fun b' => (b', fifoBuffGetPushAvailable b')
    else
      let newLen := (b.size + lacking.toNat + b.chunkSize) % 2 ^ 32
      if reallocOk then
        let b' := { b with size := newLen, top := blockResize 0 b.top newLen }
        some (b', fifoBuffGetPushAvailable b')
      else some (b, avail)
  else some (b, avail)

/-! ## Public functions -/

def fifoBuffCreate (initialSize : UInt32) : Option IcFifoBuff :=
  -- a size below 64 is replaced by the default
  let n := if initialSize.toNat < 64 then defaultBufferSize else initialSize.toNat
  (ensureCapacity true ⟨[], 0, 0, 0, n⟩ n).map Prod.fst

def fifoBuffClear (b : IcFifoBuff) : IcFifoBuff := { b with readPos := 0, writePos := 0 }

def fifoBuffPush (reallocOk : Bool) (b : IcFifoBuff) (src : List UInt8) : Option IcFifoBuff := do
  let (b', _) ← ensureCapacity reallocOk b src.length
  -- the space that `ensureCapacity` reports is not compared with the length
  let top ← blockWrite b'.top b'.writePos src
  some { b' with top := top, writePos := (b'.writePos + src.length) % 2 ^ 32 }

def fifoBuffPushByte (reallocOk : Bool) (b : IcFifoBuff) (byte : UInt8) : Option IcFifoBuff :=
  fifoBuffPush reallocOk b [byte]

/-- Only the effect on the buffer: the pointer handed out is `top + writePos`. -/
def fifoBuffPushPointer (reallocOk : Bool) (b : IcFifoBuff) (numBytesNeeded : Nat) :
    Option IcFifoBuff :=
  (ensureCapacity reallocOk b numBytesNeeded).map Prod.fst

/-- The caller has written `added` through the pointer and reports its length. -/
def fifoBuffAfterPushPointer (b : IcFifoBuff) (added : List UInt8) : Option IcFifoBuff := do
  let top ← blockWrite b.top b.writePos added
  some { b with top := top, writePos := (b.writePos + added.length) % 2 ^ 32 }

/-- The buffer and the bytes copied to `dest`; none are copied when fewer than
`numBytes` are there. -/
def fifoBuffPull (b : IcFifoBuff) (numBytes : Nat) : Option (IcFifoBuff × List UInt8) :=
  if fifoBuffGetPullAvailable b < numBytes then some (b, [])
  else do
    let dest ← blockRead b.top b.readPos numBytes
    some ({ b with readPos := (b.readPos + numBytes) % 2 ^ 32 }, dest)

/-- Whether the pointer returned is not `NULL`. -/
def fifoBuffPullPointer (b : IcFifoBuff) (numBytesNeeded : Nat) : Bool :=
  decide (numBytesNeeded ≤ fifoBuffGetPullAvailable b)

/-- The caller has read `numBytesPulled` bytes through the pointer. -/
def fifoBuffAfterPullPointer (b : IcFifoBuff) (numBytesPulled : Nat) :
    Option (IcFifoBuff × List UInt8) := do
  let dest ← blockRead b.top b.readPos numBytesPulled
  some ({ b with readPos := (b.readPos + numBytesPulled) % 2 ^ 32 }, dest)

/-! ## Sequences of calls -/

/-- A call on the buffer, with the outcome of a `realloc` made during it. -/
inductive Call where
  | push (src : List UInt8) (reallocOk : Bool)
  | pushByte (byte : UInt8) (reallocOk : Bool)
  | pushPointer (numBytesNeeded : UInt32) (reallocOk : Bool)
  | afterPushPointer (added : List UInt8)
  | pull (numBytes : UInt32)
  | pullPointer (numBytesNeeded : UInt32)
  | afterPullPointer (numBytesPulled : UInt32)
  | clear
deriving DecidableEq, Repr

/-- The buffer and what its user was last granted: the number of bytes asked for
with `fifoBuffPushPointer`, and with a `fifoBuffPullPointer` that did not return
`NULL`. -/
structure Session where
  buff : IcFifoBuff
  pushGrant : Nat
  pullGrant : Nat
deriving DecidableEq, Repr

/-- One call; the output is the bytes the caller received. -/
def call (s : Session) : Call → Option (Session × List UInt8)
  | .push src ok => (fifoBuffPush ok s.buff src).map fun b => (⟨b, 0, 0⟩, [])
  | .pushByte byte ok => (fifoBuffPushByte ok s.buff byte).map fun b => (⟨b, 0, 0⟩, [])
  | .pushPointer n ok => (fifoBuffPushPointer ok s.buff n.toNat).map fun b => (⟨b, n.toNat, 0⟩, [])
  | .afterPushPointer added => (fifoBuffAfterPushPointer s.buff added).map fun b => (⟨b, 0, 0⟩, [])
  | .pull n => (fifoBuffPull s.buff n.toNat).map fun r => (⟨r.1, 0, 0⟩, r.2)
  | .pullPointer n =>
    some (⟨s.buff, 0, if fifoBuffPullPointer s.buff n.toNat then n.toNat else 0⟩, [])
  | .afterPullPointer n => (fifoBuffAfterPullPointer s.buff n.toNat).map fun r => (⟨r.1, 0, 0⟩, r.2)
  | .clear => some (⟨fifoBuffClear s.buff, 0, 0⟩, [])

/-- The size `ensureCapacity` would give the block, without wrapping. -/
def grownSize (b : IcFifoBuff) (n : Nat) : Nat :=
  b.size + (n - (b.size - b.writePos)) + b.chunkSize

/-- A request for `n` bytes of room with all sizes below `2^31`. -/
def SizesFit (b : IcFifoBuff) (n : Nat) : Prop :=
  n < 2 ^ 31 ∧
    (b.size - b.writePos < n → needsCompress b = false → grownSize b n < 2 ^ 31)

/-- When the unused area is too small for `n` bytes and the block is compacted
instead of grown, the unread data and `n` more bytes fit in the block. -/
def RoomAfterCompaction (b : IcFifoBuff) (n : Nat) : Prop :=
  b.size - b.writePos < n → b.readPos > b.size / 2 → b.writePos - b.readPos + n ≤ b.size

/-- The calls considered: sizes stay below `2^31`, `realloc` succeeds, and a
pointer is used for no more bytes than it was requested for. -/
def InDomain (s : Session) : Call → Prop
  | .push src ok => ok = true ∧ SizesFit s.buff src.length
  | .pushByte _ ok => ok = true ∧ SizesFit s.buff 1
  | .pushPointer n ok => ok = true ∧ SizesFit s.buff n.toNat
  | .afterPushPointer added => added.length ≤ s.pushGrant
  | .afterPullPointer n => n.toNat ≤ s.pullGrant
  | .pull _ | .pullPointer _ | .clear => True

/-- The room a call asks for is there after a compaction made for it. -/
def HasRoom (s : Session) : Call → Prop
  | .push src _ => RoomAfterCompaction s.buff src.length
  | .pushByte _ _ => RoomAfterCompaction s.buff 1
  | .pushPointer n _ => RoomAfterCompaction s.buff n.toNat
  | .afterPushPointer _ | .afterPullPointer _ | .pull _ | .pullPointer _ | .clear => True

instance (b : IcFifoBuff) (n : Nat) : Decidable (SizesFit b n) := by
  unfold SizesFit; infer_instance

instance (b : IcFifoBuff) (n : Nat) : Decidable (RoomAfterCompaction b n) := by
  unfold RoomAfterCompaction; infer_instance

instance (s : Session) (c : Call) : Decidable (InDomain s c) := by
  cases c <;> unfold InDomain <;> infer_instance

instance (s : Session) (c : Call) : Decidable (HasRoom s c) := by
  cases c <;> unfold HasRoom <;> infer_instance

/-! ## The abstract byte queue -/

/-- What the buffer is for: a queue of bytes. -/
def queueStep (q : List UInt8) : Call → List UInt8 × List UInt8
  | .push src _ => (q ++ src, [])
  | .pushByte byte _ => (q ++ [byte], [])
  | .pushPointer _ _ => (q, [])
  | .afterPushPointer added => (q ++ added, [])
  | .pull n => if q.length < n.toNat then (q, []) else (q.drop n.toNat, q.take n.toNat)
  | .pullPointer _ => (q, [])
  | .afterPullPointer n => (q.drop n.toNat, q.take n.toNat)
  | .clear => ([], [])

/-- The unread bytes of the buffer. -/
def contents (b : IcFifoBuff) : List UInt8 := window b.top b.readPos b.writePos

/-! ## The invariant -/

/-- `readPos ≤ writePos ≤ size`, and the block has `size` bytes. -/
structure Valid (b : IcFifoBuff) : Prop where
  read_le : b.readPos ≤ b.writePos
  write_le : b.writePos ≤ b.size
  length_top : b.top.length = b.size
  size_lt : b.size < 2 ^ 31

theorem sub32_of_le {a b : Nat} (hba : b ≤ a) (ha : a < 2 ^ 32) : sub32 a b = a - b := by
  unfold sub32
  omega

variable {b : IcFifoBuff} {q : List UInt8}

theorem fifoBuffGetPullAvailable_eq (h : Valid b) :
    fifoBuffGetPullAvailable b = b.writePos - b.readPos :=
  sub32_of_le h.read_le (by have := h.size_lt; have := h.write_le; omega)

theorem length_contents (h : Valid b) : (contents b).length = b.writePos - b.readPos :=
  length_window (by rw [h.length_top]; exact h.write_le)

/-! ## What `ensureCapacity` does -/

theorem compact_spec (h : Valid b) (hc : needsCompress b = true) :
    ∃ b', compact b = some b' ∧ Valid b' ∧ contents b' = contents b ∧
      b'.size = b.size ∧ b'.writePos = b.writePos - b.readPos := by
  have hread := h.read_le
  have hwrite := h.write_le
  have hsize := h.size_lt
  have hlen : sub32 b.writePos b.readPos = b.writePos - b.readPos := sub32_of_le hread (by omega)
  have hhalf : b.size > 0 ∧ b.readPos > b.size / 2 := by simpa [needsCompress] using hc
  have hin : b.readPos + (b.writePos - b.readPos) ≤ b.top.length := by rw [h.length_top]; omega
  have hdata : (contents b).length = b.writePos - b.readPos := length_contents h
  -- more than half is consumed, so source and target do not overlap
  obtain ⟨top, htop⟩ : ∃ top, blockWrite b.top 0 (contents b) = some top := by
    simp only [blockWrite]
    rw [if_pos (by rw [hdata, h.length_top]; omega)]
    exact ⟨_, rfl⟩
  refine ⟨{ b with top := top, readPos := 0, writePos := b.writePos - b.readPos }, ?_, ?_, ?_,
    rfl, rfl⟩
  · have hend : b.readPos + (b.writePos - b.readPos) = b.writePos := by omega
    unfold compact
    rw [hlen, if_pos (by omega), blockRead_eq_window hin, hend]
    change (do let top ← blockWrite b.top 0 (contents b); some _) = some _
    rw [htop]
    rfl
  · exact ⟨by simp, by simp only; omega, by rw [length_blockWrite htop, h.length_top], hsize⟩
  · have hwindow := window_blockWrite (Nat.le_refl 0) htop
    rw [hdata] at hwindow
    simpa [contents, window] using hwindow

/-- `ensureCapacity` keeps the buffer valid and its contents; it makes the room
asked for unless it compacts a block that is too small for it. -/
theorem ensureCapacity_spec {n : Nat} (h : Valid b) (hfit : SizesFit b n) :
    ∃ b' a, ensureCapacity true b n = some (b', a) ∧ Valid b' ∧ contents b' = contents b ∧
      (b'.writePos + n ≤ b'.size ↔ RoomAfterCompaction b n) := by
  have hread := h.read_le
  have hwrite := h.write_le
  have hsize := h.size_lt
  obtain ⟨hn, hgrow⟩ := hfit
  have hlack : toInt32 (sub32 n (b.size - b.writePos)) = (n : Int) - ↑(b.size - b.writePos) := by
    unfold toInt32 sub32
    split <;> omega
  have havailable : fifoBuffGetPushAvailable b = b.size - b.writePos :=
    sub32_of_le hwrite (by omega)
  unfold ensureCapacity
  simp only [havailable, hlack]
  -- room enough, a compaction, or a larger block
  by_cases hroom : b.size - b.writePos < n
  · rw [if_pos (by omega)]
    by_cases hc : needsCompress b = true
    · obtain ⟨b', hb', hv, hcont, hsz, hwr⟩ := compact_spec h hc
      have hhalf : b.readPos > b.size / 2 := by
        have := hc
        simp only [needsCompress, Bool.and_eq_true, decide_eq_true_eq] at this
        exact this.2
      refine ⟨b', fifoBuffGetPushAvailable b', by simp [hc, hb'], hv, hcont, ?_⟩
      rw [hsz, hwr]
      exact ⟨fun hle _ _ => hle, fun hr => hr hroom hhalf⟩
    · have hlt := hgrow hroom (by simpa using hc)
      -- nothing wraps, by the bounds on the sizes
      have hnew : (b.size + ((n : Int) - ↑(b.size - b.writePos)).toNat + b.chunkSize) % 2 ^ 32 =
          grownSize b n := by
        unfold grownSize at hlt ⊢
        omega
      rw [if_neg hc, hnew]
      refine ⟨_, _, rfl, ⟨hread, ?_, length_blockResize _ _ _, hlt⟩, ?_, ?_⟩
      · unfold grownSize; simp only; omega
      · exact window_blockResize 0 (by rw [h.length_top]; unfold grownSize; omega)
          (by rw [h.length_top]; exact hwrite)
      · constructor
        · intro _ _ hhalf
          exact absurd hc (by simp [needsCompress, hhalf]; omega)
        · intro _
          unfold grownSize
          simp only
          omega
  · rw [if_neg (by omega)]
    exact ⟨b, _, rfl, h, rfl, fun _ hlt => absurd hlt hroom, fun _ => by omega⟩

theorem afterPush_spec (data : List UInt8) (h : Valid b)
    (hroom : b.writePos + data.length ≤ b.size) :
    ∃ b', fifoBuffAfterPushPointer b data = some b' ∧ Valid b' ∧
      contents b' = contents b ++ data := by
  have hsize := h.size_lt
  obtain ⟨top, htop⟩ : ∃ top, blockWrite b.top b.writePos data = some top := by
    simp only [blockWrite, h.length_top, if_pos hroom]
    exact ⟨_, rfl⟩
  have hmod : (b.writePos + data.length) % 2 ^ 32 = b.writePos + data.length :=
    Nat.mod_eq_of_lt (by omega)
  refine ⟨{ b with top := top, writePos := b.writePos + data.length }, ?_, ?_, ?_⟩
  · simp only [fifoBuffAfterPushPointer, htop, hmod, Option.bind_eq_bind, Option.bind_some]
  · exact ⟨by have := h.read_le; simp only; omega, hroom,
      by rw [length_blockWrite htop, h.length_top], hsize⟩
  · exact window_blockWrite h.read_le htop

theorem fifoBuffPush_eq (ok : Bool) (b : IcFifoBuff) (src : List UInt8) :
    fifoBuffPush ok b src =
      (ensureCapacity ok b src.length).bind fun r => fifoBuffAfterPushPointer r.1 src := rfl

theorem afterPull_spec {n : Nat} (h : Valid b) (hn : b.readPos + n ≤ b.writePos) :
    ∃ b', fifoBuffAfterPullPointer b n = some (b', (contents b).take n) ∧ Valid b' ∧
      contents b' = (contents b).drop n := by
  have hwrite := h.write_le
  have hsize := h.size_lt
  have hin : b.readPos + n ≤ b.top.length := by rw [h.length_top]; omega
  have hmod : (b.readPos + n) % 2 ^ 32 = b.readPos + n := Nat.mod_eq_of_lt (by omega)
  obtain ⟨hdrop, htake⟩ := window_split (m := b.top) (a := b.readPos) (b := b.writePos) (n := n)
  refine ⟨{ b with readPos := b.readPos + n }, ?_, ⟨hn, hwrite, h.length_top, hsize⟩, hdrop.symm⟩
  simp only [fifoBuffAfterPullPointer, blockRead_eq_window hin, hmod, contents, htake (by omega)]
  rfl

/-! ## Refinement -/

/-- A session whose grants lie inside the block, and the queue it stands for. -/
structure Refines (s : Session) (q : List UInt8) : Prop where
  valid : Valid s.buff
  push_le : s.buff.writePos + s.pushGrant ≤ s.buff.size
  pull_le : s.buff.readPos + s.pullGrant ≤ s.buff.writePos
  contents_eq : contents s.buff = q

theorem Refines.of_valid (h : Valid b) (hq : contents b = q) : Refines ⟨b, 0, 0⟩ q :=
  ⟨h, by simpa using h.write_le, by simpa using h.read_le, hq⟩

/-- Every push of the API is a byte-queue append when its room is there. -/
theorem fifoBuffPush_spec (src : List UInt8) (h : Valid b) (hfit : SizesFit b src.length)
    (hroom : RoomAfterCompaction b src.length) :
    ∃ b', fifoBuffPush true b src = some b' ∧ Valid b' ∧ contents b' = contents b ++ src := by
  obtain ⟨b₁, a, h₁, hv₁, hc₁, hr₁⟩ := ensureCapacity_spec h hfit
  obtain ⟨b₂, h₂, hv₂, hc₂⟩ := afterPush_spec src hv₁ (hr₁.mpr hroom)
  refine ⟨b₂, ?_, hv₂, by rw [hc₂, hc₁]⟩
  rw [fifoBuffPush_eq, h₁]
  exact h₂

/-- One call of the buffer is one step of the byte queue. -/
theorem call_refines {s : Session} {c : Call} (hR : Refines s q) (hd : InDomain s c)
    (hr : HasRoom s c) :
    ∃ s', call s c = some (s', (queueStep q c).2) ∧ Refines s' (queueStep q c).1 := by
  obtain ⟨hv, hpush, hpl, rfl⟩ := hR
  cases c with
  | push src ok =>
    obtain ⟨rfl, hfit⟩ := hd
    obtain ⟨b', hb', hv', hc'⟩ := fifoBuffPush_spec src hv hfit hr
    exact ⟨⟨b', 0, 0⟩, by simp [call, hb', queueStep], .of_valid hv' hc'⟩
  | pushByte byte ok =>
    obtain ⟨rfl, hfit⟩ := hd
    obtain ⟨b', hb', hv', hc'⟩ := fifoBuffPush_spec [byte] hv hfit hr
    exact ⟨⟨b', 0, 0⟩, by simp [call, fifoBuffPushByte, hb', queueStep], .of_valid hv' hc'⟩
  | pushPointer n ok =>
    obtain ⟨rfl, hfit⟩ := hd
    obtain ⟨b', a, hb', hv', hc', hroom⟩ := ensureCapacity_spec hv hfit
    refine ⟨⟨b', n.toNat, 0⟩, by simp [call, fifoBuffPushPointer, hb', queueStep], ?_⟩
    exact ⟨hv', hroom.mpr hr, by simpa using hv'.read_le, hc'⟩
  | afterPushPointer added =>
    have hle : added.length ≤ s.pushGrant := hd
    obtain ⟨b', hb', hv', hc'⟩ := afterPush_spec added hv (by omega)
    exact ⟨⟨b', 0, 0⟩, by simp [call, hb', queueStep], .of_valid hv' hc'⟩
  | pull n =>
    have hlen := length_contents hv
    by_cases hshort : (contents s.buff).length < n.toNat
    · refine ⟨⟨s.buff, 0, 0⟩, ?_, ?_⟩
      · simp [call, fifoBuffPull, queueStep, hshort, fifoBuffGetPullAvailable_eq hv, ← hlen]
      · simpa [queueStep, hshort] using Refines.of_valid hv rfl
    · obtain ⟨b', hb', hv', hc'⟩ := afterPull_spec (n := n.toNat) hv (by have := hv.read_le; omega)
      -- a pull that is not refused reads as through the pointer
      have hpullEq : fifoBuffPull s.buff n.toNat = fifoBuffAfterPullPointer s.buff n.toNat := by
        simp only [fifoBuffPull, fifoBuffGetPullAvailable_eq hv, ← hlen, if_neg hshort]
        rfl
      refine ⟨⟨b', 0, 0⟩, ?_, ?_⟩
      · simp [call, hpullEq, hb', queueStep, hshort]
      · simpa [queueStep, hshort] using Refines.of_valid hv' hc'
  | pullPointer n =>
    refine ⟨_, rfl, hv, by simpa using hv.write_le, ?_, rfl⟩
    simp only [fifoBuffPullPointer, fifoBuffGetPullAvailable_eq hv, decide_eq_true_eq]
    split <;> omega
  | afterPullPointer n =>
    have hle : n.toNat ≤ s.pullGrant := hd
    obtain ⟨b', hb', hv', hc'⟩ := afterPull_spec (n := n.toNat) hv (by omega)
    exact ⟨⟨b', 0, 0⟩, by simp [call, hb', queueStep], .of_valid hv' hc'⟩
  | clear =>
    refine ⟨_, rfl, .of_valid ⟨Nat.le_refl 0, Nat.zero_le _, hv.length_top, hv.size_lt⟩ ?_⟩
    simp [contents, window, fifoBuffClear, queueStep]

/-! ## The buffer as a byte queue -/

theorem fifoBuffCreate_spec {initialSize : UInt32} (hn : initialSize.toNat < 2 ^ 30) :
    ∃ b, fifoBuffCreate initialSize = some b ∧ Valid b ∧ contents b = [] := by
  have hv : ∀ n, Valid ⟨[], 0, 0, 0, n⟩ := fun n => ⟨Nat.le_refl 0, Nat.le_refl 0, rfl, by simp⟩
  unfold fifoBuffCreate
  -- both sizes are small enough for one growth
  generalize hm : (if initialSize.toNat < 64 then defaultBufferSize else initialSize.toNat) = m
  have hm' : m < 2 ^ 30 := by
    subst hm
    unfold defaultBufferSize
    split <;> omega
  obtain ⟨b, a, hb, hvb, hc, -⟩ := ensureCapacity_spec (n := m) (hv m)
    ⟨by omega, fun _ _ => by unfold grownSize; simp only; omega⟩
  exact ⟨b, by simp [hb], hvb, by rw [hc]; rfl⟩

/-- The calls, made on a new buffer, behave as on a byte queue: every access is
inside the block, the callers receive the bytes the queue hands out, and the
positions stay in order. -/
def RefinesByteQueue (initialSize : UInt32) (calls : List Call) : Prop :=
  ∃ b s outs q, fifoBuffCreate initialSize = some b ∧
    run call ⟨b, 0, 0⟩ calls = some (s, outs) ∧
    run (fun q c => some (queueStep q c)) [] calls = some (q, outs) ∧
    contents s.buff = q ∧ s.buff.readPos ≤ s.buff.writePos ∧ s.buff.writePos ≤ s.buff.size

/-- The calls on a new buffer that are considered, in the state each is made. -/
def CallsMeet (cond : Session → Call → Prop) (initialSize : UInt32) (calls : List Call) : Prop :=
  initialSize.toNat < 2 ^ 30 ∧
    ∀ b, fifoBuffCreate initialSize = some b → Guarded call cond ⟨b, 0, 0⟩ calls

/-- **The FIFO buffer refines a byte queue** along every sequence of calls in
which no compaction is asked for more room than it can free. -/
theorem fifoBuff_refines_byteQueue (initialSize : UInt32) (calls : List Call)
    (h : CallsMeet (fun s c => InDomain s c ∧ HasRoom s c) initialSize calls) :
    RefinesByteQueue initialSize calls := by
  obtain ⟨b, hb, hv, hc⟩ := fifoBuffCreate_spec h.1
  have hstep : ∀ s q c, Refines s q → (InDomain s c ∧ HasRoom s c) →
      ∃ s', call s c = some (s', (queueStep q c).2) ∧ Refines s' (queueStep q c).1 :=
    fun s q c hR hg => call_refines hR hg.1 hg.2
  obtain ⟨s, q, outs, hrun, hspec, hR⟩ :=
    run_refines hstep (Refines.of_valid hv hc) (h.2 b hb)
  exact ⟨b, s, outs, q, hb, hrun, hspec, hR.contents_eq, hR.valid.read_le, hR.valid.write_le⟩

/-- A buffer that grows once, is consumed for more than half and is compacted
when 40 more bytes arrive. -/
theorem fifoBuff_refines_byteQueue_compacting :
    RefinesByteQueue 64 [.push (List.replicate 100 7) true, .pull 70, .pushPointer 40 true,
      .afterPushPointer [1, 2, 3], .pullPointer 33, .afterPullPointer 33] := by
  refine fifoBuff_refines_byteQueue 64 _ ⟨by decide, fun b hb => ?_⟩
  obtain rfl : b = ⟨List.replicate 128 0, 0, 0, 128, 64⟩ := by
    have : fifoBuffCreate 64 = some ⟨List.replicate 128 0, 0, 0, 128, 64⟩ := by decide
    exact Option.some.inj (hb.symm.trans this)
  decide +kernel

/-- The calls that overflow: 30 unread bytes are left in a block of 128 whose
first 70 are consumed, and 100 more are pushed. -/
def overflowingCalls : List Call :=
  [.push (List.replicate 100 7) true, .pull 70, .push (List.replicate 100 8) true]

/-- The last push compacts the block, finds no room for its bytes and writes
them past its end. -/
theorem fifoBuff_not_refines_byteQueue :
    ¬ ∀ (initialSize : UInt32) (calls : List Call),
      CallsMeet InDomain initialSize calls → RefinesByteQueue initialSize calls := by
  intro h
  have hcreate : fifoBuffCreate 64 = some ⟨List.replicate 128 0, 0, 0, 128, 64⟩ := by decide
  have hmeet : CallsMeet InDomain 64 overflowingCalls := by
    refine ⟨by decide, fun b hb => ?_⟩
    cases hb.symm.trans hcreate
    decide +kernel
  obtain ⟨b, s, outs, q, hb, hrun, -⟩ := h 64 overflowingCalls hmeet
  cases hb.symm.trans hcreate
  have hnone : run call ⟨⟨List.replicate 128 0, 0, 0, 128, 64⟩, 0, 0⟩ overflowingCalls = none := by
    decide +kernel
  rw [hnone] at hrun
  cases hrun

end ZilkerSdk.Types.FifoBuffer
