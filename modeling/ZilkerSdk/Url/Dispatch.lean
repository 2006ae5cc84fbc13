import ZilkerSdk.Url.Trie

/-!
# What the dispatcher finds

The search of the trie misses a template with a variable where another one has a
literal that is the segment, although the rest of that other one does not match.  And a
segment that is the name of the variable it stands for is not put into the map of values.
Everything else is found, with the right values.
-/

namespace ZilkerSdk.Url

open Lib Types Util List

variable {η : Type*}

/-! ## The values -/

/-- Patterns with distinct, short names. -/
def Named (p : Pattern CString) : Prop :=
  (wildcardNames p).Nodup ∧ ∀ name ∈ wildcardNames p, name.length < 62

theorem length_lt_of_mem_names {toks : List CString} (h : ∀ tok ∈ toks, BasicToken tok) :
    ∀ name ∈ wildcardNames (toks.map segmentOf), name.length < 62 := by
  induction toks with
  | nil => exact nofun
  | cons tok toks ih =>
    have hrest := ih fun tok htok => h tok (mem_cons_of_mem _ htok)
    intro name hname
    rw [map_cons] at hname
    cases hvar : isVariable tok with
    | false =>
      rw [segmentOf_literal hvar] at hname
      exact hrest name hname
    | true =>
      rw [segmentOf_variable hvar] at hname
      obtain rfl | hmem := mem_cons.mp hname
      · exact (h tok mem_cons_self hvar).2
      · exact hrest name hmem

theorem items_putAll {values : List (CString × CString)}
    (hshort : ∀ value ∈ values, value.1.length < 62) (hnodup : (values.map Prod.fst).Nodup)
    {valuesMap : ValuesMap}
    (hfree : ∀ value ∈ values, stringKey value.1 ∉ valuesMap.items.map Prod.fst) :
    (putAll valuesMap values).items =
      valuesMap.items ++ values.map fun value => (stringKey value.1, value.2) := by
  induction values generalizing valuesMap with
  | nil => exact (append_nil _).symm
  | cons value values ih =>
    rw [map_cons, nodup_cons] at hnodup
    have hget : hashMapGet valuesMap (stringKey value.1) = none :=
      hashMapGet_eq_none_iff.mpr (hfree value mem_cons_self)
    have hitems : (stringHashMapPut valuesMap value.1 value.2).items =
        valuesMap.items ++ [(stringKey value.1, value.2)] := items_put_of_free _ hget
    show (putAll (stringHashMapPut valuesMap value.1 value.2) values).items = _
    rw [ih (fun v hv => hshort v (mem_cons_of_mem _ hv)) hnodup.2, hitems, append_assoc]
    · rfl
    · intro v hv hmem
      rw [hitems, map_append, mem_append] at hmem
      obtain hold | hnew := hmem
      · exact hfree v (mem_cons_of_mem _ hv) hold
      · have hkey : stringKey v.1 = stringKey value.1 := mem_singleton.mp hnew
        have hvshort := hshort v (mem_cons_of_mem _ hv)
        have hvalueshort := hshort value mem_cons_self
        have hname := stringKey_injective (by omega) (by omega) hkey
        exact hnodup.1 (hname ▸ mem_map_of_mem hv)

variable {uri : CString} {p : Pattern CString} {x : UriHandlerContainer η}

theorem items_caught (h : Named p) (uri : List CString) :
    (putAll hashMapCreate (caught lower p uri)).items =
      (caught lower p uri).map fun value => (stringKey value.1, value.2) := by
  have hnames : ((caught lower p uri).map Prod.fst).Sublist (wildcardNames p) :=
    ((caught_sublist p uri).map _).trans (names_bindings p uri)
  apply items_putAll
  · exact fun value hvalue => h.2 _ (hnames.subset (mem_map_of_mem hvalue))
  · exact hnames.nodup h.1
  · exact fun value _ hmem => absurd hmem not_mem_nil

/-! ## Whole runs -/

structure Registration (η : Type*) where
  uriTemplate : CString
  container : UriHandlerContainer η

/-- A dispatcher, and a record of the templates that were registered with success. -/
structure State (η : Type*) where
  dispatcher : UriDispatcher η
  registered : Table η

/-- `uriDispatcherCreate`, with some directives. -/
def created (directives : IcHashMap CString Directive) : State η :=
  ⟨⟨createNode "_HEAD_".toList, directives⟩, []⟩

def step (s : State η) (r : Registration η) : Option (State η × AddResult) :=
  (registerUriHandler s.dispatcher r.uriTemplate r.container).map fun (dispatcher, result) =>
    (⟨dispatcher, if result = .addOk then s.registered ++ [(patternOf r.uriTemplate, r.container)]
      else s.registered⟩, result)

/-- The registration will succeed. -/
def accepts (s : State η) (r : Registration η) : Bool :=
  match registerUriHandler s.dispatcher r.uriTemplate r.container with
  | some (_, result) => result = .addOk
  | none => false

/-- A template that is accepted is compatible with those before it. -/
def Plain (s : State η) (r : Registration η) : Prop :=
  accepts s r = true → ∀ entry ∈ s.registered, Compatible lower entry.1 (patternOf r.uriTemplate)

instance (s : State η) (r : Registration η) : Decidable (Plain s r) :=
  inferInstanceAs (Decidable (_ → _))

/-- The trie represents the registered templates. -/
structure Sound (s : State η) : Prop where
  rep : Rep s.dispatcher.head s.registered
  named : ∀ entry ∈ s.registered, Named entry.1

/-- A registration that is plain is possible, and the trie still represents the table. -/
theorem Sound.step {s : State η} {r : Registration η} (h : Sound s) (hbasic : Basic r.uriTemplate)
    (hplain : Plain s r) : ∃ s' result, step s r = some (s', result) ∧ Sound s' := by
  have htoks : ∀ tok ∈ segments r.uriTemplate, tok ≠ [] ∧ BasicToken tok := fun tok htok =>
    ⟨ne_nil_of_mem_segments htok, hbasic.tokens tok htok⟩
  obtain ⟨⟨head, result⟩, hreg⟩ := registerFrom_isSome htoks s.dispatcher.head
  have hregister : registerUriHandler s.dispatcher r.uriTemplate r.container =
      some ({ s.dispatcher with head := head }, result) := by
    rw [registerUriHandler, hreg]
    rfl
  refine ⟨_, result, by rw [Url.step, hregister]; rfl, ?_⟩
  by_cases hok : result = .addOk
  · subst hok
    have haccepts : accepts s r = true := by
      rw [accepts, hregister]
      rfl
    refine ⟨h.rep.register htoks (hplain haccepts) hreg, fun entry hentry => ?_⟩
    obtain hold | hnew := mem_append.mp hentry
    · exact h.named entry hold
    · rw [mem_singleton.mp hnew]
      exact ⟨hbasic.distinct, length_lt_of_mem_names hbasic.tokens⟩
  · rw [if_neg hok]
    obtain rfl := registerFrom_failed htoks hreg hok
    exact ⟨h.rep, h.named⟩

/-- The dispatcher finds a handler if a template matches; it is the handler of such a template,
and the values are those of that template's variables. -/
def Dispatches (s : State η) (uri : CString) : Prop :=
  ((∃ x, (locateUriHandler s.dispatcher uri hashMapCreate).1 = some x) ↔
    ∃ entry ∈ s.registered, Matches lower entry.1 (segments uri)) ∧
  ∀ x, (locateUriHandler s.dispatcher uri hashMapCreate).1 = some x →
    ∃ p, (p, x) ∈ s.registered ∧ Matches lower p (segments uri) ∧
      (locateUriHandler s.dispatcher uri hashMapCreate).2.items =
        (bindings p (segments uri)).map fun value => (stringKey value.1, value.2)

/-- If templates match, one of them is not shadowed, and none of its variables stands for its own
name. -/
def Reachable (table : Table η) (uri : List CString) : Prop :=
  (∃ entry ∈ table, Matches lower entry.1 uri) →
    ∃ entry ∈ table, Matches lower entry.1 uri ∧ Unshadowed lower table entry.1 uri ∧
      Unspelled lower entry.1 uri

instance [DecidableEq η] (table : Table η) (uri : List CString) : Decidable (Reachable table uri) :=
  inferInstanceAs (Decidable (_ → _))

section

variable {s : State η} (h : Sound s)
include h

theorem Sound.located (hfound : (locateUriHandler s.dispatcher uri hashMapCreate).1 = some x) :
    ∃ p, (p, x) ∈ s.registered ∧ Matches lower p (segments uri) ∧
      Unshadowed lower s.registered p (segments uri) ∧
      (locateUriHandler s.dispatcher uri hashMapCreate).2.items =
        (caught lower p (segments uri)).map fun value => (stringKey value.1, value.2) := by
  obtain ⟨node, hnode, hx⟩ := Option.bind_eq_some_iff.mp hfound
  obtain ⟨p, hp, hmatches, hunshadowed, hvalues⟩ :=
    h.rep.matches_of_locate (fun _ => ne_nil_of_mem_segments) (Prod.ext hnode rfl) hx
  refine ⟨p, hp, hmatches, hunshadowed, ?_⟩
  rw [← items_caught (h.named _ hp)]
  exact congrArg IcHashMap.items hvalues

theorem Sound.locates (hp : (p, x) ∈ s.registered) (hmatches : Matches lower p (segments uri))
    (hunshadowed : Unshadowed lower s.registered p (segments uri)) :
    (locateUriHandler s.dispatcher uri hashMapCreate).1 = some x ∧
      (locateUriHandler s.dispatcher uri hashMapCreate).2.items =
        (caught lower p (segments uri)).map fun value => (stringKey value.1, value.2) := by
  obtain ⟨node, hlocate, hx⟩ : ∃ node : TrieNode η,
      locateFrom s.dispatcher.variableDirectives (segments uri) s.dispatcher.head hashMapCreate =
        (some node, putAll hashMapCreate (caught lower p (segments uri))) ∧
      node.container = some x :=
    h.rep.locate_of_matches (fun _ => ne_nil_of_mem_segments) hp hmatches hunshadowed
  have hfound : locateUriHandler s.dispatcher uri hashMapCreate =
      (some x, putAll hashMapCreate (caught lower p (segments uri))) := by
    rw [locateUriHandler, hlocate]
    exact congrArg (fun found => (found, _)) hx
  rw [hfound]
  exact ⟨rfl, items_caught (h.named _ hp) _⟩

theorem Sound.dispatches
    (hreachable : Reachable s.registered (segments uri)) : Dispatches s uri := by
  by_cases hmatch : ∃ entry ∈ s.registered, Matches lower entry.1 (segments uri)
  · obtain ⟨⟨p, x⟩, hp, hmatches, hunshadowed, hunspelled⟩ := hreachable hmatch
    obtain ⟨hfound, hvalues⟩ := h.locates hp hmatches hunshadowed
    rw [(caught_eq_bindings_iff _ _).mpr hunspelled] at hvalues
    refine ⟨iff_of_true ⟨x, hfound⟩ hmatch, fun y hy => ?_⟩
    cases hfound.symm.trans hy
    exact ⟨p, hp, hmatches, hvalues⟩
  · have hnone : ∀ x, (locateUriHandler s.dispatcher uri hashMapCreate).1 ≠ some x := by
      intro x hx
      obtain ⟨p, hp, hmatches, -⟩ := h.located hx
      exact hmatch ⟨_, hp, hmatches⟩
    exact ⟨iff_of_false (fun ⟨x, hx⟩ => hnone x hx) hmatch, fun x hx => absurd hx (hnone x)⟩

theorem Sound.reachable (hdistinct : (s.registered.map Prod.snd).Nodup)
    (hdispatches : Dispatches s uri) : Reachable s.registered (segments uri) := by
  intro hmatch
  obtain ⟨x, hx⟩ := hdispatches.1.mpr hmatch
  obtain ⟨p, hp, hmatches, hunshadowed, hvalues⟩ := h.located hx
  obtain ⟨q, hq, -, hbindings⟩ := hdispatches.2 x hx
  -- the template whose variables the values are is the one that was found
  obtain rfl : p = q := congrArg Prod.fst (inj_on_of_nodup_map hdistinct hp hq rfl)
  refine ⟨_, hp, hmatches, hunshadowed, (caught_eq_bindings_iff _ _).mp ?_⟩
  apply (caught_sublist p (segments uri)).eq_of_length
  have hlength := congrArg length (hvalues.symm.trans hbindings)
  rwa [length_map, length_map] at hlength

end

/-- Two templates that share their first segment, and have a literal and a
variable in the second. -/
def overlapping : List (Registration Nat) :=
  [⟨"/a/x/c".toList, ⟨0, none⟩⟩, ⟨"/a/[v]/d".toList, ⟨1, none⟩⟩]

/-- A literal of one template is the name of a variable of another. -/
def misnamed : List (Registration Nat) :=
  [⟨"/a/[id]/x".toList, ⟨0, none⟩⟩, ⟨"/a/id/y".toList, ⟨1, none⟩⟩]

end ZilkerSdk.Url
