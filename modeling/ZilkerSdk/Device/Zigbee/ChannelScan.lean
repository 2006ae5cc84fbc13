import Mathlib.Data.List.Induction
import Mathlib.Data.List.Nodup

/-!
# The results of channel scans

Model of `channelEnergyDataCollectingCallback` in
`services/device/core/src/subsystems/zigbee/zigbeeEventTracker.c`, and of `linkedListGetElementAt`
in `libs/types/c/src/icLinkedList.c`, by which it looks for the item of a channel.

The function takes the number of the channel for the position of its item.  But items are appended,
and the channels start at 11: a list with at most that many items gets another one for the channel,
and a longer list loses the item that happens to be at the position.
-/

namespace ZilkerSdk.Device.Zigbee

open List

/-! ## The collection -/

section

variable {α : Type*}

/-- The loop of `linkedListGetElementAt`. -/
def walkTo (offset : Nat) : List α → Nat → Option α
  | [], _ => none
  | item :: rest, count => if count = offset then some item else walkTo offset rest (count + 1)

def linkedListGetElementAt (list : List α) (offset : Nat) : Option α :=
  if list.length = 0 ∨ offset ≥ list.length then none else walkTo offset list 0

theorem walkTo_eq (list : List α) (count n : Nat) : walkTo (count + n) list count = list[n]? := by
  induction list generalizing count n with
  | nil => rfl
  | cons item rest ih =>
    cases n with
    | zero => simp [walkTo]
    | succ n =>
      have hnext := ih (count + 1) n
      rw [Nat.add_right_comm, Nat.add_assoc] at hnext
      simp [walkTo, hnext]

theorem linkedListGetElementAt_eq (list : List α) (offset : Nat) :
    linkedListGetElementAt list offset = list[offset]? := by
  unfold linkedListGetElementAt
  split
  · rw [getElem?_eq_none (by omega)]
  · have := walkTo_eq list 0 offset
    rwa [Nat.zero_add] at this

end

/-- `zhalEnergyScanResult` -/
structure ScanResult where
  maxRssi : Int8
  minRssi : Int8
  averageRssi : Int8
deriving DecidableEq

/-- `channelEnergyScanDataItem` -/
structure ScanDataItem where
  channel : Nat
  max : Int8
  min : Int8
  average : Int8
deriving DecidableEq

/-- The item that is made of a result, or that it is written to. -/
def scanDataItem (channelNum : Nat) (scanResult : ScanResult) : ScanDataItem :=
  ⟨channelNum, scanResult.maxRssi, scanResult.minRssi, scanResult.averageRssi⟩

/-- What the loop finds out about a channel: that collecting has been turned off, or the response of
`zhalPerformEnergyScan`. -/
inductive Scan where
  | turnedOff
  | response (results : Option (List ScanResult))

def storeResult (channelCollection : List ScanDataItem) (channelNum : Nat)
    (scanResult : ScanResult) : List ScanDataItem :=
  match linkedListGetElementAt channelCollection channelNum with
  | none => channelCollection ++ [scanDataItem channelNum scanResult]
  | some _ => channelCollection.set channelNum (scanDataItem channelNum scanResult)

/-- The loop over the channels. -/
def scanChannels (scan : Nat → Scan) : List Nat → List ScanDataItem → List ScanDataItem
  | [], channelCollection => channelCollection
  | channelNum :: rest, channelCollection =>
    match scan channelNum with
    | .turnedOff => channelCollection
    | .response response =>
      match response.bind (linkedListGetElementAt · 0) with
      | none => scanChannels scan rest channelCollection
      | some scanResult =>
        scanChannels scan rest (storeResult channelCollection channelNum scanResult)

/-- From `MIN_ZIGBEE_CHANNEL` to `MAX_ZIGBEE_CHANNEL`. -/
def zigbeeChannels : List Nat := List.range' 11 15

def channelEnergyDataCollectingCallback (scan : Nat → Scan)
    (channelCollection : List ScanDataItem) : List ScanDataItem :=
  scanChannels scan zigbeeChannels channelCollection

/-- The collection after some runs. -/
def collect (runs : List (Nat → Scan)) : List ScanDataItem :=
  runs.foldl (fun channelCollection scan =>
    channelEnergyDataCollectingCallback scan channelCollection) []

/-! ## The successful scans -/

def successesFrom (scan : Nat → Scan) : List Nat → List (Nat × ScanResult)
  | [] => []
  | channelNum :: rest =>
    match scan channelNum with
    | .turnedOff => []
    | .response response =>
      ((response.bind (·.head?)).map (channelNum, ·)).toList ++ successesFrom scan rest

/-- The successful scans of some runs, one after another. -/
def successful (runs : List (Nat → Scan)) : List (Nat × ScanResult) :=
  runs.flatMap fun scan => successesFrom scan zigbeeChannels

/-- The collection after some successful scans. -/
def stored (scans : List (Nat × ScanResult)) : List ScanDataItem :=
  scans.foldl (fun channelCollection s => storeResult channelCollection s.1 s.2) []

theorem scanChannels_eq (scan : Nat → Scan) (channels : List Nat) (collection : List ScanDataItem) :
    scanChannels scan channels collection =
      (successesFrom scan channels).foldl (fun c s => storeResult c s.1 s.2) collection := by
  induction channels generalizing collection with
  | nil => rfl
  | cons channelNum rest ih =>
    simp only [scanChannels, successesFrom]
    cases scan channelNum with
    | turnedOff => rfl
    | response response =>
      simp only [linkedListGetElementAt_eq, ← head?_eq_getElem?]
      cases response.bind (·.head?) with
      | none | some => simp [ih]

theorem collect_eq_stored (runs : List (Nat → Scan)) : collect runs = stored (successful runs) := by
  simp only [collect, stored, successful, foldl_flatMap, channelEnergyDataCollectingCallback,
    scanChannels_eq]

/-! ## One item per channel -/

/-- The most recent result of a channel. -/
def latest (scans : List (Nat × ScanResult)) (channel : Nat) : Option ScanResult :=
  scans.reverse.lookup channel

/-- There is one item for every channel that was scanned, and it holds the latest result. -/
structure HoldsLatest (scans : List (Nat × ScanResult)) (collection : List ScanDataItem) :
    Prop where
  unique : (collection.map (·.channel)).Nodup
  mem_iff : ∀ channel result, scanDataItem channel result ∈ collection ↔
    latest scans channel = some result

/-- A new channel is appended, or the item at its position is its own. -/
def Fits (collection : List ScanDataItem) (channel : Nat) : Prop :=
  if collection.length ≤ channel then channel ∉ collection.map (·.channel)
  else ∃ item ∈ collection[channel]?, item.channel = channel

theorem latest_concat (scans : List (Nat × ScanResult)) (scan : Nat × ScanResult) (channel : Nat) :
    latest (scans ++ [scan]) channel =
      if channel = scan.1 then some scan.2 else latest scans channel := by
  obtain ⟨c, r⟩ := scan
  rw [latest, reverse_concat, lookup_cons]
  by_cases h : channel = c
  · simp [h]
  · rw [beq_false_of_ne h, if_neg h, latest]

@[simp] theorem scanDataItem_inj {c d : Nat} {r q : ScanResult} :
    scanDataItem c r = scanDataItem d q ↔ c = d ∧ r = q := by
  cases r
  cases q
  simp [scanDataItem]

variable {scans : List (Nat × ScanResult)} {collection : List ScanDataItem} {channel : Nat}

theorem HoldsLatest.append_iff (h : HoldsLatest scans collection) (result : ScanResult) :
    HoldsLatest (scans ++ [(channel, result)]) (collection ++ [scanDataItem channel result]) ↔
      channel ∉ collection.map (·.channel) := by
  have hunique : ((collection ++ [scanDataItem channel result]).map (·.channel)).Nodup ↔
      channel ∉ collection.map (·.channel) := by
    rw [map_append, map_singleton, ← concat_eq_append, nodup_concat]
    exact and_iff_left h.unique
  refine ⟨fun hnext => hunique.mp hnext.unique, fun hnew => ⟨hunique.mpr hnew, fun d q => ?_⟩⟩
  rw [latest_concat, mem_append, mem_singleton, scanDataItem_inj, h.mem_iff]
  by_cases hd : d = channel
  · have hnone : ¬ latest scans d = some q := fun hq =>
      hnew (hd ▸ mem_map_of_mem ((h.mem_iff d q).mpr hq))
    simp [hd, hd ▸ hnone, eq_comm]
  · simp [hd]

theorem HoldsLatest.replace_iff {before after : List ScanDataItem} {old : Nat} {value : ScanResult}
    (h : HoldsLatest scans (before ++ scanDataItem old value :: after)) (result : ScanResult) :
    HoldsLatest (scans ++ [(channel, result)]) (before ++ scanDataItem channel result :: after) ↔
      old = channel := by
  -- no other item is for the channel of the one that is replaced
  have hother : ∀ q, scanDataItem old q ∉ before ++ after := by
    intro q hq
    have hunique := h.unique
    rw [map_append, map_cons, nodup_middle, nodup_cons, ← map_append] at hunique
    exact hunique.1 (mem_map.mpr ⟨_, hq, rfl⟩)
  constructor
  · intro hnext
    by_contra hne
    have hlatest : latest scans old = some value := by
      rw [← h.mem_iff]
      simp
    have hmem : scanDataItem old value ∈ before ++ scanDataItem channel result :: after := by
      rw [hnext.mem_iff, latest_concat, if_neg hne, hlatest]
    apply hother value
    simpa [hne] using hmem
  · rintro rfl
    refine ⟨by simpa [scanDataItem] using h.unique, fun d q => ?_⟩
    rw [latest_concat]
    by_cases hd : d = old
    · have hnone := hother q
      rw [mem_append, not_or] at hnone
      simp [hd, hnone, eq_comm]
    · rw [if_neg hd, ← h.mem_iff]
      simp [hd]

/-- A result keeps the collection in order if and only if it fits. -/
theorem holdsLatest_store_iff (h : HoldsLatest scans collection) (result : ScanResult) :
    HoldsLatest (scans ++ [(channel, result)]) (storeResult collection channel result) ↔
      Fits collection channel := by
  unfold storeResult Fits
  rw [linkedListGetElementAt_eq]
  rcases Nat.lt_or_ge channel collection.length with hlt | hge
  · obtain ⟨before, after, hsplit, -, hset⟩ : ∃ before after,
        collection = before ++ collection[channel] :: after ∧ before.length = channel ∧
          collection.set channel (scanDataItem channel result) =
            before ++ scanDataItem channel result :: after :=
      exists_of_set hlt
    rw [getElem?_eq_getElem hlt, if_neg (Nat.not_le.mpr hlt)]
    obtain ⟨value, hold⟩ : ∃ r, collection[channel] = scanDataItem collection[channel].channel r :=
      ⟨⟨_, _, _⟩, rfl⟩
    rw [hsplit, hold] at h
    simpa [hset] using h.replace_iff result
  · rw [getElem?_eq_none hge, if_pos hge]
    exact h.append_iff result

/-- Something is true after every beginning of a list if it is true at first and every element keeps
it. -/
theorem forall_isPrefix_iff {α : Type*} {P : List α → Prop} {Q : List α → α → Prop} (hnil : P [])
    (hstep : ∀ l a, P l → (P (l ++ [a]) ↔ Q l a)) (list : List α) :
    (∀ l, l <+: list → P l) ↔ ∀ l a, l ++ [a] <+: list → Q l a := by
  constructor
  · intro h l a hprefix
    have hl : P l := h l ((prefix_append l [a]).trans hprefix)
    exact (hstep l a hl).mp (h _ hprefix)
  · intro h l
    induction l using reverseRecOn with
    | nil => exact fun _ => hnil
    | append_singleton l a ih =>
      intro hprefix
      have hl : P l := ih ((prefix_append l [a]).trans hprefix)
      exact (hstep l a hl).mpr (h l a hprefix)

/-- After every scan of the runs the collection has one item for every channel that was scanned,
with the latest result, if and only if every result fits into the collection that it comes to. -/
theorem latest_per_channel_iff (runs : List (Nat → Scan)) :
    collect runs = stored (successful runs) ∧
      ((∀ scans, scans <+: successful runs → HoldsLatest scans (stored scans)) ↔
        ∀ scans scan, scans ++ [scan] <+: successful runs → Fits (stored scans) scan.1) := by
  refine ⟨collect_eq_stored runs, ?_⟩
  apply forall_isPrefix_iff ⟨nodup_nil, by simp [stored, latest]⟩
  intro scans scan h
  have hstored : stored (scans ++ [scan]) = storeResult (stored scans) scan.1 scan.2 := by
    simp [stored]
  rw [hstored]
  exact holdsLatest_store_iff h scan.2

/-- Two runs in which all scans succeed: there are two items for channel 11, and the result of
channel 22 is lost. -/
theorem second_run_loses_channel :
    let run (n : Int8) : Nat → Scan := fun _ => .response (some [⟨n, n, n⟩])
    (collect [run 1, run 2]).map (fun item => (item.channel, item.average)) =
        [(11, 1), (12, 1), (13, 1), (14, 1), (15, 1), (16, 1), (17, 1), (18, 1), (19, 1), (20, 1),
          (21, 1), (11, 2), (12, 2), (13, 2), (14, 2), (15, 2), (16, 2), (17, 2), (18, 2), (19, 2),
          (20, 2), (21, 2), (22, 2), (23, 2), (24, 2), (25, 2)] ∧
      ¬ HoldsLatest (successful [run 1, run 2]) (collect [run 1, run 2]) := by
  intro run
  have hchannels : ¬ ((collect [run 1, run 2]).map (·.channel)).Nodup := by decide +kernel
  exact ⟨by decide +kernel, fun h => hchannels h.unique⟩

end ZilkerSdk.Device.Zigbee
