import Mathlib.Data.List.Nodup

/-!
# Lists of members

A small library of lists whose members are found by a key.  The first member with a key is the one
that is found, deleted or changed, as in an object of a JSON library or in a linked list.  The key
need not be the whole name of a member: names that are compared without regard to case have the
lower-case name as their key.
-/

namespace ZilkerSdk.Lib

open List

section

variable {α κ : Type*} {key : α → κ} {m : α} {members : List α}

/-- No two members have the same key. -/
def DistinctKeys (key : α → κ) (members : List α) : Prop := (members.map key).Nodup

theorem distinctKeys_cons :
    DistinctKeys key (m :: members) ↔ (∀ x ∈ members, key x ≠ key m) ∧
      DistinctKeys key members := by
  rw [DistinctKeys, map_cons, nodup_cons, mem_map]
  constructor
  · rintro ⟨h, hmembers⟩
    exact ⟨fun x hx heq => h ⟨x, hx, heq⟩, hmembers⟩
  · rintro ⟨h, hmembers⟩
    exact ⟨fun ⟨x, hx, heq⟩ => h x hx heq, hmembers⟩

/-- Members with the same key are the same. -/
theorem DistinctKeys.eq (h : DistinctKeys key members) {x y : α} (hx : x ∈ members)
    (hy : y ∈ members) (hkey : key x = key y) : x = y :=
  inj_on_of_nodup_map h hx hy hkey

theorem distinctKeys_append (h : DistinctKeys key members) (hm : ∀ x ∈ members, key x ≠ key m) :
    DistinctKeys key (members ++ [m]) := by
  rw [DistinctKeys, map_append]
  apply List.Nodup.append h (nodup_singleton _)
  rw [disjoint_singleton]
  intro hmem
  obtain ⟨x, hx, heq⟩ := mem_map.mp hmem
  exact hm x hx heq

end

variable {α κ : Type*} [DecidableEq κ] (key : α → κ)

def findMember (k : κ) (members : List α) : Option α := members.find? fun m => key m = k

def deleteMember (k : κ) (members : List α) : List α := members.eraseP fun m => key m = k

def updateMember (k : κ) (f : α → α) : List α → List α
  | [] => []
  | m :: members => if key m = k then f m :: members else m :: updateMember k f members

section

variable {key} {k : κ} {f : α → α} {m : α} {members : List α}

theorem findMember_eq_none_iff : findMember key k members = none ↔ ∀ x ∈ members, key x ≠ k := by
  simp [findMember]

theorem of_findMember_eq_some (h : findMember key k members = some m) : m ∈ members ∧ key m = k :=
  ⟨mem_of_find?_eq_some h, by simpa using find?_some h⟩

section

variable (h : DistinctKeys key members)
include h

theorem findMember_eq_some_iff :
    findMember key k members = some m ↔ m ∈ members ∧ key m = k := by
  refine ⟨of_findMember_eq_some, fun ⟨hm, hkey⟩ => ?_⟩
  cases hfind : findMember key k members with
  | none => exact absurd hkey (findMember_eq_none_iff.mp hfind m hm)
  | some x =>
    obtain ⟨hx, hxkey⟩ := of_findMember_eq_some hfind
    rw [h.eq hx hm (hxkey.trans hkey.symm)]

theorem mem_deleteMember :
    m ∈ deleteMember key k members ↔ m ∈ members ∧ key m ≠ k := by
  induction members with
  | nil => simp [deleteMember]
  | cons x members ih =>
    obtain ⟨hx, hmembers⟩ := distinctKeys_cons.mp h
    by_cases hkey : key x = k
    · -- the other members have other keys
      rw [deleteMember, eraseP_cons_of_pos (by simpa using hkey), mem_cons]
      constructor
      · intro hm
        exact ⟨.inr hm, hkey ▸ hx m hm⟩
      · rintro ⟨rfl | hm, hne⟩
        · exact absurd hkey hne
        · exact hm
    · rw [deleteMember, eraseP_cons_of_neg (by simpa using hkey), ← deleteMember, mem_cons,
        mem_cons, ih hmembers]
      constructor
      · rintro (rfl | ⟨hm, hne⟩)
        · exact ⟨.inl rfl, hkey⟩
        · exact ⟨.inr hm, hne⟩
      · rintro ⟨rfl | hm, hne⟩
        · exact .inl rfl
        · exact .inr ⟨hm, hne⟩

theorem DistinctKeys.deleteMember :
    DistinctKeys key (deleteMember key k members) :=
  List.Nodup.sublist (List.Sublist.map key eraseP_sublist) h

end

theorem keys_updateMember (hf : ∀ x, key x = k → key (f x) = k) :
    (updateMember key k f members).map key = members.map key := by
  induction members with
  | nil => rfl
  | cons x members ih =>
    unfold updateMember
    split
    · rename_i hkey
      rw [map_cons, map_cons, hf x hkey, hkey]
    · rw [map_cons, map_cons, ih]

theorem DistinctKeys.updateMember (h : DistinctKeys key members)
    (hf : ∀ x, key x = k → key (f x) = k) :
    DistinctKeys key (updateMember key k f members) := by
  rw [DistinctKeys, keys_updateMember hf]
  exact h

/-- Replacing the member that is found by itself changes nothing. -/
theorem updateMember_eq_self (h : findMember key k members = some m) :
    updateMember key k (fun _ => m) members = members := by
  induction members with
  | nil => rfl
  | cons x members ih =>
    unfold updateMember
    rw [findMember, find?_cons] at h
    split
    · rename_i hkey
      simp only [hkey, decide_true] at h
      rw [Option.some.inj h]
    · rename_i hkey
      simp only [hkey, decide_false] at h
      rw [ih h]

theorem mem_updateMember (h : DistinctKeys key members) :
    m ∈ updateMember key k f members ↔
      (m ∈ members ∧ key m ≠ k) ∨ ∃ x ∈ members, key x = k ∧ m = f x := by
  induction members with
  | nil => simp [updateMember]
  | cons x members ih =>
    obtain ⟨hx, hmembers⟩ := distinctKeys_cons.mp h
    unfold updateMember
    split
    -- the first member has the key, and no other one does
    · rename_i hkey
      simp only [mem_cons]
      constructor
      · rintro (rfl | hm)
        · exact .inr ⟨x, .inl rfl, hkey, rfl⟩
        · exact .inl ⟨.inr hm, hkey ▸ hx m hm⟩
      · rintro (⟨rfl | hm, hne⟩ | ⟨y, rfl | hy, hykey, rfl⟩)
        · exact absurd hkey hne
        · exact .inr hm
        · exact .inl rfl
        · exact absurd (hykey.trans hkey.symm) (hx y hy)
    · rename_i hkey
      simp only [mem_cons, ih hmembers]
      constructor
      · rintro (rfl | ⟨hm, hne⟩ | ⟨y, hy, hykey, rfl⟩)
        · exact .inl ⟨.inl rfl, hkey⟩
        · exact .inl ⟨.inr hm, hne⟩
        · exact .inr ⟨y, .inr hy, hykey, rfl⟩
      · rintro (⟨rfl | hm, hne⟩ | ⟨y, rfl | hy, hykey, rfl⟩)
        · exact .inl rfl
        · exact .inr (.inl ⟨hm, hne⟩)
        · exact absurd hykey hkey
        · exact .inr (.inr ⟨y, hy, hykey, rfl⟩)

end

end ZilkerSdk.Lib
