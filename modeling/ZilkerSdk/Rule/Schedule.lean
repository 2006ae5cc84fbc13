import ZilkerSdk.Rule.TimeSlot

/-!
# Thermostat schedules of rules

Model of the merging of entries in `libs/libicrule/src/icrule_schedule.c`.

A rule has schedule entries.  An entry that sets some thermostats to a temperature at some time is
merged into an earlier entry with the same mode, temperature and time if that one has all its
thermostats, or none at all.  Then only the days of the earlier entry change.

What an entry does is a set of settings: a thermostat, a mode, a temperature, a time and a day.
Here it is shown when merging leaves this set as it is, whatever the days are.

The thermostats of an entry are a plain list, which `linkedListCount` finds empty only if it is:
their number is no positive multiple of 65536.
-/

namespace ZilkerSdk.Rule

open Lib Types Util List

/-! ## Schedules -/

/-- `icrule_thermostat_mode_t` -/
inductive ThermostatMode where
  | heat
  | cool
  | both
deriving DecidableEq

/-- `icrule_thermostat_schedule_t` -/
structure Schedule where
  ids : List CString
  time : RuleTime
  mode : ThermostatMode
  temperature : Int
deriving DecidableEq

/-- What an entry is without its days. -/
structure Slot where
  ids : List CString
  mode : ThermostatMode
  temperature : Int
  useExactTime : Bool
  time : Nat
deriving DecidableEq

def Schedule.slot (schedule : Schedule) : Slot :=
  ⟨schedule.ids, schedule.mode, schedule.temperature, schedule.time.useExactTime,
    schedule.time.time⟩

/-- Same mode, temperature and time. -/
def Slot.sameSetting (schedule item : Slot) : Bool :=
  schedule.mode = item.mode && schedule.temperature = item.temperature &&
    schedule.useExactTime = item.useExactTime && schedule.time = item.time

/-- The test of `contians_schedule`: does the item contain the schedule? -/
def Slot.isContained (schedule item : Slot) : Bool :=
  schedule.sameSetting item && (item.ids.isEmpty || schedule.ids.all fun id => item.ids.contains id)

/-- `contians_schedule`: the first item that contains the schedule. -/
def contiansSchedule (schedule : Schedule) (items : List Schedule) : Option Nat :=
  items.findIdx? fun item => schedule.slot.isContained item.slot

/-- `old_schedule->time.day_of_week |= …` -/
def Schedule.addDays (item : Schedule) (days : BitVec 8) : Schedule :=
  { item with time := { item.time with dayOfWeek := item.time.dayOfWeek ||| days } }

/-- The end of `icrule_parse_schedule`: a schedule is merged into an earlier one or appended. -/
def mergeSchedule (scheduleList : List Schedule) (schedule : Schedule) : List Schedule :=
  match contiansSchedule schedule scheduleList with
  | some i => scheduleList.modify i (·.addDays schedule.time.dayOfWeek)
  | none => scheduleList ++ [schedule]

/-- The schedule list that is built from entries. -/
def mergeAll (entries : List Schedule) : List Schedule := entries.foldl mergeSchedule []

/-! ## What a schedule does -/

/-- A thermostat is set to a temperature on a day. -/
structure Setting where
  id : CString
  mode : ThermostatMode
  temperature : Int
  useExactTime : Bool
  time : Nat
  day : Nat

/-- The setting is among those of a slot, on any day. -/
def Slot.Sets (slot : Slot) (s : Setting) : Prop :=
  s.id ∈ slot.ids ∧ s.mode = slot.mode ∧ s.temperature = slot.temperature ∧
    s.useExactTime = slot.useExactTime ∧ s.time = slot.time

/-- The schedule list makes the setting. -/
def Denotes (schedules : List Schedule) (s : Setting) : Prop :=
  ∃ schedule ∈ schedules, schedule.slot.Sets s ∧ schedule.time.dayOfWeek.getLsbD s.day = true

instance (slot : Slot) (s : Setting) : Decidable (slot.Sets s) :=
  inferInstanceAs (Decidable (_ ∧ _ ∧ _ ∧ _ ∧ _))

instance (schedules : List Schedule) (s : Setting) : Decidable (Denotes schedules s) := by
  delta Denotes
  infer_instance

theorem denotes_append (first second : List Schedule) (s : Setting) :
    Denotes (first ++ second) s ↔ Denotes first s ∨ Denotes second s := by
  simp only [Denotes, mem_append, or_and_right, exists_or]

theorem denotes_singleton (schedule : Schedule) (s : Setting) :
    Denotes [schedule] s ↔
      schedule.slot.Sets s ∧ schedule.time.dayOfWeek.getLsbD s.day = true := by
  simp only [Denotes, mem_singleton, exists_eq_left]

@[simp] theorem slot_addDays (item : Schedule) (days : BitVec 8) :
    (item.addDays days).slot = item.slot := rfl

/-! ## One step -/

theorem modify_findIdx {α : Type*} (p : α → Bool) (f : α → α) (xs : List α) :
    (xs.find? p = none ∧ xs.findIdx? p = none) ∨
    ∃ first x second i, xs = first ++ x :: second ∧ xs.find? p = some x ∧ xs.findIdx? p = some i ∧
      xs.modify i f = first ++ f x :: second := by
  induction xs with
  | nil => exact .inl ⟨rfl, rfl⟩
  | cons head rest ih =>
    cases hhead : p head with
    | true =>
      exact .inr ⟨[], head, rest, 0, rfl, find?_cons_of_pos hhead,
        by rw [findIdx?_cons, hhead]; rfl, rfl⟩
    | false =>
      have hfind : (head :: rest).find? p = rest.find? p := by rw [find?_cons, hhead]
      have hidx' : (head :: rest).findIdx? p = (rest.findIdx? p).map (· + 1) := by
        rw [findIdx?_cons, hhead]
        rfl
      rw [hfind, hidx']
      obtain ⟨hnone, hidx⟩ | ⟨first, x, second, i, hsplit, hsome, hidx, hmodify⟩ := ih
      · rw [hidx]
        exact .inl ⟨hnone, rfl⟩
      · refine .inr ⟨head :: first, x, second, i + 1, by rw [hsplit]; rfl, hsome, by rw [hidx]; rfl,
          ?_⟩
        rw [modify_succ_cons, hmodify]
        rfl

theorem mergeSchedule_cases (scheduleList : List Schedule) (schedule : Schedule) :
    ((scheduleList.map Schedule.slot).find? schedule.slot.isContained = none ∧
      mergeSchedule scheduleList schedule = scheduleList ++ [schedule]) ∨
    ∃ first item second, scheduleList = first ++ item :: second ∧
      (scheduleList.map Schedule.slot).find? schedule.slot.isContained = some item.slot ∧
      mergeSchedule scheduleList schedule =
        first ++ item.addDays schedule.time.dayOfWeek :: second := by
  unfold mergeSchedule contiansSchedule
  have hfind : (scheduleList.map Schedule.slot).find? schedule.slot.isContained =
      (scheduleList.find? fun item => schedule.slot.isContained item.slot).map Schedule.slot :=
    find?_map
  obtain ⟨hnone, hidx⟩ | ⟨first, item, second, i, hsplit, hsome, hidx, hmodify⟩ :=
    modify_findIdx (fun item => schedule.slot.isContained item.slot)
      (·.addDays schedule.time.dayOfWeek) scheduleList
  · rw [hidx, hfind, hnone]
    exact .inl ⟨rfl, rfl⟩
  · rw [hidx, hfind, hsome]
    exact .inr ⟨first, item, second, hsplit, rfl, hmodify⟩

/-- The slots of a list after an entry was merged. -/
def mergeSlot (slots : List Slot) (slot : Slot) : List Slot :=
  match slots.find? slot.isContained with
  | some _ => slots
  | none => slots ++ [slot]

theorem slots_mergeSchedule (scheduleList : List Schedule) (schedule : Schedule) :
    (mergeSchedule scheduleList schedule).map Schedule.slot =
      mergeSlot (scheduleList.map Schedule.slot) schedule.slot := by
  obtain ⟨hnone, hmerge⟩ | ⟨first, item, second, hsplit, hsome, hmerge⟩ :=
    mergeSchedule_cases scheduleList schedule
  · rw [mergeSlot, hnone, hmerge, map_append]
    rfl
  · rw [mergeSlot, hsome, hmerge, hsplit, map_append, map_append, map_cons, map_cons, slot_addDays]

/-- What an entry adds: its days to the item it is merged into, or its own settings. -/
theorem denotes_mergeSchedule (scheduleList : List Schedule) (schedule : Schedule) (s : Setting) :
    Denotes (mergeSchedule scheduleList schedule) s ↔ Denotes scheduleList s ∨
      ((((scheduleList.map Schedule.slot).find? schedule.slot.isContained).getD
        schedule.slot).Sets s ∧ schedule.time.dayOfWeek.getLsbD s.day = true) := by
  obtain ⟨hnone, hmerge⟩ | ⟨first, item, second, hsplit, hsome, hmerge⟩ :=
    mergeSchedule_cases scheduleList schedule
  · rw [hnone, hmerge, denotes_append, denotes_singleton]
    rfl
  · have hdays : Denotes [item.addDays schedule.time.dayOfWeek] s ↔ Denotes [item] s ∨
        (item.slot.Sets s ∧ schedule.time.dayOfWeek.getLsbD s.day = true) := by
      rw [denotes_singleton, denotes_singleton, slot_addDays, ← and_or_left]
      show _ ∧ (item.time.dayOfWeek ||| schedule.time.dayOfWeek).getLsbD s.day = true ↔ _
      rw [BitVec.getLsbD_or, Bool.or_eq_true]
    have hcons : ∀ x : Schedule, Denotes (first ++ x :: second) s ↔
        Denotes first s ∨ Denotes [x] s ∨ Denotes second s := by
      intro x
      rw [denotes_append, ← denotes_append [x] second]
      rfl
    rw [hsome, hmerge, hsplit, hcons, hcons, hdays]
    tauto

/-! ## Lists that can be merged -/

/-- The same thermostats. -/
def SameIds (k slot : Slot) : Prop := ∀ id, id ∈ k.ids ↔ id ∈ slot.ids

/-- If an entry is contained in an earlier one, then the first entry that contains it has the same
thermostats. -/
def mergesAlike (earlier : List Slot) : List Slot → Prop
  | [] => True
  | slot :: later =>
    (∀ k, earlier.find? slot.isContained = some k → SameIds k slot) ∧
      mergesAlike (earlier ++ [slot]) later

section

variable {e k slot : Slot}

theorem isContained_iff :
    slot.isContained k = true ↔
      slot.sameSetting k = true ∧ (k.ids = [] ∨ ∀ id ∈ slot.ids, id ∈ k.ids) := by
  simp [Slot.isContained]

theorem sets_iff_of_sameSetting (h : slot.sameSetting k = true) (s : Setting) :
    k.Sets s ↔ s.id ∈ k.ids ∧ s.mode = slot.mode ∧ s.temperature = slot.temperature ∧
      s.useExactTime = slot.useExactTime ∧ s.time = slot.time := by
  simp only [Slot.sameSetting, Bool.and_eq_true, decide_eq_true_eq] at h
  obtain ⟨⟨⟨hmode, htemperature⟩, hexact⟩, htime⟩ := h
  rw [Slot.Sets, hmode, htemperature, hexact, htime]

theorem isContained_of_sameIds (hslot : slot.isContained k = true) (hids : SameIds k slot)
    (h : e.isContained slot = true) : e.isContained k = true := by
  rw [isContained_iff] at hslot h ⊢
  refine ⟨?_, ?_⟩
  · have hslot' := hslot.1
    have h' := h.1
    simp only [Slot.sameSetting, Bool.and_eq_true, decide_eq_true_eq] at hslot' h' ⊢
    obtain ⟨⟨⟨h1, h2⟩, h3⟩, h4⟩ := h'
    obtain ⟨⟨⟨k1, k2⟩, k3⟩, k4⟩ := hslot'
    exact ⟨⟨⟨h1.trans k1, h2.trans k2⟩, h3.trans k3⟩, h4.trans k4⟩
  · obtain hnil | hall := h.2
    · left
      apply eq_nil_iff_forall_not_mem.mpr
      intro id hid
      exact not_mem_nil (hnil ▸ (hids id).mp hid)
    · exact .inr fun id hid => (hids id).mpr (hall id hid)

end

/-- The list that is kept and the entries so far contain the same entries, in the same items. -/
def Agree (kept earlier : List Slot) : Prop :=
  ∀ e : Slot, kept.find? e.isContained = earlier.find? e.isContained

variable {done entries kept : List Schedule} {earlier later : List Slot}

theorem Agree.step {kept : List Slot} {slot : Slot} (h : Agree kept earlier)
    (hslot : ∀ k, earlier.find? slot.isContained = some k → SameIds k slot) :
    Agree (mergeSlot kept slot) (earlier ++ [slot]) := by
  intro e
  unfold mergeSlot
  cases hfind : kept.find? slot.isContained with
  | none =>
    rw [find?_append, find?_append, h e]
  | some k =>
    have hk : earlier.find? slot.isContained = some k := (h slot).symm.trans hfind
    rw [find?_append, h e]
    cases hfirst : earlier.find? e.isContained with
    | some j => rfl
    | none =>
      -- the new entry contains nothing that is not contained already
      have hnot : ¬ e.isContained slot = true := by
        intro he
        have hek := isContained_of_sameIds (find?_some hk) (hslot k hk) he
        exact find?_eq_none.mp hfirst k (mem_of_find?_eq_some hk) hek
      rw [find?_singleton, if_neg hnot]
      rfl

/-! ## Merging lists that can be merged -/

section

variable (hagree : Agree (kept.map Schedule.slot) (done.map Schedule.slot))
  (hdenotes : ∀ s, Denotes kept s ↔ Denotes done s)
include hagree hdenotes

theorem denotes_step {x : Schedule}
    (hx : ∀ k, (done.map Schedule.slot).find? x.slot.isContained = some k → SameIds k x.slot)
    (s : Setting) : Denotes (mergeSchedule kept x) s ↔ Denotes (done ++ [x]) s := by
  rw [denotes_mergeSchedule, denotes_append, denotes_singleton, hdenotes s, hagree x.slot]
  cases hfind : (done.map Schedule.slot).find? x.slot.isContained with
  | none => rfl
  | some k =>
    have hsetting := (isContained_iff.mp (find?_some hfind)).1
    rw [Option.getD_some, sets_iff_of_sameSetting hsetting, hx k hfind s.id]
    rfl

theorem denotes_foldl {later : List Schedule}
    (h : mergesAlike (done.map Schedule.slot) (later.map Schedule.slot)) (s : Setting) :
    Denotes (later.foldl mergeSchedule kept) s ↔ Denotes (done ++ later) s := by
  induction later generalizing kept done with
  | nil =>
    rw [append_nil]
    exact hdenotes s
  | cons x later ih =>
    obtain ⟨hx, hlater⟩ := h
    have hslots : (done ++ [x]).map Schedule.slot = done.map Schedule.slot ++ [x.slot] := map_append
    have hagree' : Agree ((mergeSchedule kept x).map Schedule.slot)
        ((done ++ [x]).map Schedule.slot) := by
      rw [slots_mergeSchedule, hslots]
      exact hagree.step hx
    rw [foldl_cons, ih hagree' (denotes_step hagree hdenotes hx) (hslots ▸ hlater), append_assoc]
    rfl

end

/-! ## Merging other lists -/

/-- A slot on given days. -/
def Slot.on (slot : Slot) (days : BitVec 8) : Schedule :=
  ⟨slot.ids, ⟨days, slot.useExactTime, slot.time⟩, slot.mode, slot.temperature⟩

theorem slot_on (slot : Slot) (days : BitVec 8) : (slot.on days).slot = slot := rfl

theorem map_slot_on (slots : List Slot) (days : BitVec 8) :
    (slots.map (·.on days)).map Schedule.slot = slots := by
  rw [map_map]
  exact map_id slots

theorem slots_foldl (entries kept : List Schedule) :
    (entries.foldl mergeSchedule kept).map Schedule.slot =
      (entries.map Schedule.slot).foldl mergeSlot (kept.map Schedule.slot) := by
  induction entries generalizing kept with
  | nil => rfl
  | cons x entries ih => rw [foldl_cons, ih, slots_mergeSchedule, map_cons, foldl_cons]

theorem denotes_foldl_other_day {s : Setting}
    (h : ∀ x ∈ entries, x.time.dayOfWeek.getLsbD s.day = false) :
    Denotes (entries.foldl mergeSchedule kept) s ↔ Denotes kept s := by
  induction entries generalizing kept with
  | nil => rfl
  | cons x entries ih =>
    have hx := h x mem_cons_self
    rw [foldl_cons, ih fun y hy => h y (mem_cons_of_mem x hy), denotes_mergeSchedule, hx]
    simp

theorem not_denotes_of_other_day {s : Setting}
    (h : ∀ x ∈ entries, x.time.dayOfWeek.getLsbD s.day = false) : ¬ Denotes entries s := by
  rintro ⟨x, hx, -, hday⟩
  rw [h x hx] at hday
  cases hday

theorem on_second_day (slots : List Slot) :
    ∀ x ∈ slots.map (·.on 2#8), x.time.dayOfWeek.getLsbD 0 = false := by
  intro x hx
  obtain ⟨slot, -, rfl⟩ := mem_map.mp hx
  show (2#8).getLsbD 0 = false
  decide

/-- Merging an entry, alone on its day, shows the thermostats of the item it is merged into. -/
theorem sameIds_of_preserved {slot k : Slot} (hagree : Agree (earlier.foldl mergeSlot []) earlier)
    (h : ∀ entries : List Schedule, entries.map Schedule.slot = earlier ++ slot :: later →
      ∀ s, Denotes (mergeAll entries) s ↔ Denotes entries s)
    (hk : earlier.find? slot.isContained = some k) : SameIds k slot := by
  intro id
  -- the entry is on the first day, all others are on the second
  let s : Setting := ⟨id, slot.mode, slot.temperature, slot.useExactTime, slot.time, 0⟩
  let before := earlier.map (·.on 2#8)
  let after := later.map (·.on 2#8)
  have hslots : (before ++ slot.on 1#8 :: after).map Schedule.slot = earlier ++ slot :: later := by
    rw [map_append, map_cons, map_slot_on, map_slot_on, slot_on]
  have hday : (slot.on 1#8).time.dayOfWeek.getLsbD s.day = true := by
    show (1#8).getLsbD 0 = true
    decide
  have hentries : Denotes (before ++ slot.on 1#8 :: after) s ↔ id ∈ slot.ids := by
    have hbefore : ¬ Denotes before s := not_denotes_of_other_day (on_second_day earlier)
    have hafter : ¬ Denotes after s := not_denotes_of_other_day (on_second_day later)
    rw [denotes_append, ← singleton_append, denotes_append, denotes_singleton, slot_on]
    constructor
    · rintro (h | ⟨h, -⟩ | h)
      · exact absurd h hbefore
      · exact h.1
      · exact absurd h hafter
    · intro h
      exact .inr (.inl ⟨⟨h, rfl, rfl, rfl, rfl⟩, hday⟩)
  have hmerged : Denotes (mergeAll (before ++ slot.on 1#8 :: after)) s ↔ id ∈ k.ids := by
    have hkept :
        (before.foldl mergeSchedule []).map Schedule.slot = earlier.foldl mergeSlot [] := by
      rw [slots_foldl, map_slot_on]
      rfl
    have hbefore : ¬ Denotes (before.foldl mergeSchedule []) s := by
      rw [denotes_foldl_other_day (on_second_day earlier)]
      rintro ⟨x, hx, -⟩
      exact not_mem_nil hx
    have hsetting := (isContained_iff.mp (find?_some hk)).1
    rw [mergeAll, foldl_append, foldl_cons,
      denotes_foldl_other_day (on_second_day later), denotes_mergeSchedule, hkept, slot_on,
      hagree slot, hk, Option.getD_some, sets_iff_of_sameSetting hsetting]
    constructor
    · rintro (h | ⟨h, -⟩)
      · exact absurd h hbefore
      · exact h.1
    · intro h
      exact .inr ⟨⟨h, rfl, rfl, rfl, rfl⟩, hday⟩
  rw [← hmerged, h _ hslots s, hentries]

theorem mergesAlike_of_preserved (hagree : Agree (earlier.foldl mergeSlot []) earlier)
    (h : ∀ entries : List Schedule, entries.map Schedule.slot = earlier ++ later →
      ∀ s, Denotes (mergeAll entries) s ↔ Denotes entries s) : mergesAlike earlier later := by
  induction later generalizing earlier with
  | nil => trivial
  | cons slot later ih =>
    have hslot : ∀ k, earlier.find? slot.isContained = some k → SameIds k slot :=
      fun k => sameIds_of_preserved hagree h
    refine ⟨hslot, ih ?_ ?_⟩
    · rw [foldl_append]
      exact hagree.step hslot
    · intro entries hentries
      apply h
      rw [hentries, append_assoc]
      rfl

theorem agree_nil : Agree [] [] := fun _ => rfl

/-- Merging keeps the settings of a list, whatever days its entries are for, exactly if an entry is
merged only with entries for the same thermostats. -/
theorem merge_preserves_iff (entries : List Schedule) :
    (∀ entries' : List Schedule, entries'.map Schedule.slot = entries.map Schedule.slot →
      ∀ s, Denotes (mergeAll entries') s ↔ Denotes entries' s) ↔
      mergesAlike [] (entries.map Schedule.slot) := by
  constructor
  · intro h
    exact mergesAlike_of_preserved agree_nil h
  · intro h entries' hslots s
    rw [← hslots] at h
    have hkept :
        Agree (([] : List Schedule).map Schedule.slot) (([] : List Schedule).map Schedule.slot) :=
      agree_nil
    exact denotes_foldl hkept (fun _ => Iff.rfl) h s

/-- A setting for two thermostats on Monday and for the first of them on Tuesday. -/
def bothThenOne : List Schedule :=
  [⟨["a".toList, "b".toList], ⟨2#8, true, 0⟩, .heat, 2000⟩,
    ⟨["a".toList], ⟨4#8, true, 0⟩, .heat, 2000⟩]

/-- A setting for no thermostat on Monday and for one on Tuesday. -/
def noneThenOne : List Schedule :=
  [⟨[], ⟨2#8, true, 0⟩, .heat, 2000⟩, ⟨["a".toList], ⟨4#8, true, 0⟩, .heat, 2000⟩]

/-- Merging sets the second thermostat on Tuesday, too, and it loses the only setting of the other
list. -/
theorem merge_adds_and_loses :
    (Denotes (mergeAll bothThenOne) ⟨"b".toList, .heat, 2000, true, 0, 2⟩ ∧
      ¬ Denotes bothThenOne ⟨"b".toList, .heat, 2000, true, 0, 2⟩) ∧
    (Denotes noneThenOne ⟨"a".toList, .heat, 2000, true, 0, 2⟩ ∧
      ¬ Denotes (mergeAll noneThenOne) ⟨"a".toList, .heat, 2000, true, 0, 2⟩) := by
  decide +kernel

end ZilkerSdk.Rule
