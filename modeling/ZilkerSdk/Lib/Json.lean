import Mathlib.Data.List.Basic

/-!
# JSON trees

A small library of JSON values as a C program sees them: an object is a list of
named members in the order in which they were added, names may repeat, and a
lookup finds the first member whose name agrees up to the case of ASCII letters.

Objects are usually built from optional members: a member without a value is left
out.  `getObjectItem_ofOptional` reads a member back.
-/

namespace ZilkerSdk.Lib

/-! ## Values -/

inductive Json where
  | null
  | bool (b : Bool)
  | number (n : Rat)
  | string (s : List Char)
  | array (items : List Json)
  | object (members : List (List Char × Json))

namespace Json

def isObject : Json → Bool
  | .object _ => true
  | _ => false

/-- The values inside an array or an object. -/
def children : Json → List Json
  | .array items => items
  | .object members => members.map Prod.snd
  | _ => []

/-- Names that differ only in the case of ASCII letters are the same name. -/
def sameName (a b : List Char) : Bool := a.map Char.toLower = b.map Char.toLower

def getObjectItem (json : Json) (name : List Char) : Option Json :=
  match json with
  | .object members => (members.find? fun member => sameName member.1 name).map Prod.snd
  | _ => none

/-! ## Objects from optional members -/

/-- The object with the members that have a value. -/
def ofOptional (members : List (List Char × Option Json)) : Json :=
  .object (members.filterMap fun member => member.2.map fun value => (member.1, value))

/-- No two names are the same. -/
def DistinctNames (members : List (List Char × Option Json)) : Prop :=
  (members.map fun member => member.1.map Char.toLower).Nodup

/-- With distinct names a lookup answers what the member was given. -/
theorem getObjectItem_ofOptional {members : List (List Char × Option Json)}
    (hnames : DistinctNames members) (name : List Char) :
    (ofOptional members).getObjectItem name =
      (members.find? fun member => sameName member.1 name).bind Prod.snd := by
  induction members with
  | nil => rfl
  | cons member rest ih =>
    obtain ⟨key, value⟩ := member
    rw [DistinctNames, List.map_cons, List.nodup_cons] at hnames
    have hrest := ih hnames.2
    simp only [ofOptional, getObjectItem] at hrest ⊢
    -- a member that is left out must not let a later one answer for it
    cases hkey : sameName key name with
    | true =>
      cases value with
      | some value => simp [hkey]
      | none =>
        -- the name is taken by the member that was left out
        have hnone : (rest.find? fun member => sameName member.1 name) = none := by
          rw [List.find?_eq_none]
          intro other hother hname
          apply hnames.1
          have hlower : other.1.map Char.toLower = key.map Char.toLower := by
            simp only [sameName, decide_eq_true_eq] at hname hkey
            rw [hname, hkey]
          exact hlower ▸ List.mem_map_of_mem hother
        rw [hnone] at hrest
        simpa [hkey] using hrest
    | false =>
      cases value with
      | some | none => simpa [hkey] using hrest

/-! ## Lists of values -/

/-- The object that lists encoded values under their names; one without a name is left out. -/
def ofList {α : Type*} (name : α → Option (List Char)) (encode : α → Json) (items : List α) :
    Json :=
  ofOptional (items.filterMap fun item => (name item).map fun key => (key, some (encode item)))

/-- When every item has a name, the children are the encoded items. -/
theorem children_ofList {α : Type*} {name : α → Option (List Char)} (encode : α → Json)
    {items : List α} (hnames : ∀ item ∈ items, (name item).isSome) :
    (ofList name encode items).children = items.map encode := by
  induction items with
  | nil => rfl
  | cons item rest ih =>
    obtain ⟨key, hkey⟩ := Option.isSome_iff_exists.mp (hnames item List.mem_cons_self)
    have hrest := ih fun other hother => hnames other (List.mem_cons_of_mem _ hother)
    simp only [ofList, ofOptional, children] at hrest ⊢
    simp [hkey, hrest]

end Json

/-- Decoding what was encoded, one value after the other. -/
theorem mapM_map_eq_some {α β γ : Type*} {encode : α → β} {decode : β → Option γ} {image : α → γ}
    {items : List α} (h : ∀ item ∈ items, decode (encode item) = some (image item)) :
    (items.map encode).mapM decode = some (items.map image) := by
  induction items with
  | nil => rfl
  | cons item rest ih =>
    have hrest := ih fun other hother => h other (List.mem_cons_of_mem _ hother)
    simp [List.mapM_cons, h item List.mem_cons_self, hrest]

end ZilkerSdk.Lib
