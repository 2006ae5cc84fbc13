import ZilkerSdk.Lib.PathPattern
import ZilkerSdk.Url.UriDispatcher

/-!
# The trie as a table of templates

The templates that were registered are a table of patterns, and `Rep` says that a node of the
trie represents such a table.  A registration keeps the trie a representation as long as
the new template is compatible with the old ones: in places they share, a literal
must not be the name of a variable.  The search of a trie that represents a table finds
what a search without backtracking finds in the table.
-/

namespace ZilkerSdk.Url

open Lib Types Util List Option

variable {η : Type*}

/-- Labels and segments are compared by their lower case. -/
abbrev lower : CString → CString := stringToLowerCase

abbrev Table (η : Type*) := List (Pattern CString × UriHandlerContainer η)

/-! ## Templates as patterns -/

def segmentOf (tok : CString) : Segment CString :=
  if isVariable tok then .wildcard (variableName tok) else .literal tok

def patternOf (uriTemplate : CString) : Pattern CString :=
  (segments uriTemplate).map segmentOf

/-- A variable without a directive, with a short name. -/
def BasicToken (tok : CString) : Prop :=
  isVariable tok = true → '#' ∉ variableName tok ∧ (variableName tok).length < 62

instance (tok : CString) : Decidable (BasicToken tok) :=
  inferInstanceAs (Decidable (_ → _))

/-- Templates of literals and basic variables with distinct names. -/
structure Basic (uriTemplate : CString) : Prop where
  tokens : ∀ tok ∈ segments uriTemplate, BasicToken tok
  distinct : (wildcardNames (patternOf uriTemplate)).Nodup

instance (uriTemplate : CString) : Decidable (Basic uriTemplate) :=
  decidable_of_iff ((∀ tok ∈ segments uriTemplate, BasicToken tok) ∧
      (wildcardNames (patternOf uriTemplate)).Nodup)
    ⟨fun h => ⟨h.1, h.2⟩, fun h => ⟨h.tokens, h.distinct⟩⟩

/-! ## Tables as tries -/

def TrieNode.place (node : TrieNode η) : Place CString :=
  if node.varType = .none then .literal (lower node.label) else .wildcard

/-- The node of a segment. -/
def TrieNode.Takes (node : TrieNode η) : Segment CString → Prop
  | .literal text => node.varType = .none ∧ lower node.label = lower text
  | .wildcard name => node.varType = .basic ∧ node.label = name

/-- A node and its children fit a table of patterns. -/
structure Layer (node : TrieNode η) (table : Table η) : Prop where
  handlers : ∀ x, node.container = some x ↔ ([], x) ∈ table
  plain : node.handler = none → node.handlerDesc = none
  covered : ∀ segment p x, (segment :: p, x) ∈ table → ∃ c ∈ node.children, c.Takes segment
  used : ∀ c ∈ node.children, ∃ segment p x, (segment :: p, x) ∈ table ∧ c.Takes segment
  labels : (node.children.map fun c => lower c.label).Nodup
  first : ∀ c ∈ node.children.tail, c.varType = .none
  undirected : ∀ c ∈ node.children, c.directive = none

/-- The trie below a node represents a table of patterns. -/
inductive Rep : TrieNode η → Table η → Prop
  | intro {node : TrieNode η} {table : Table η} (layer : Layer node table)
    (children : ∀ c ∈ node.children, Rep c (under lower c.place table)) : Rep node table

section

variable {node : TrieNode η} {segment : Segment CString}

theorem TrieNode.Takes.place_eq (h : node.Takes segment) : node.place = segment.place lower := by
  cases segment with
  | literal text =>
    obtain ⟨hvar, hlabel⟩ := h
    rw [TrieNode.place, if_pos hvar, hlabel]
    rfl
  | wildcard name =>
    obtain ⟨hvar, -⟩ := h
    rw [TrieNode.place, if_neg (by rw [hvar]; exact TrieVarType.noConfusion)]
    rfl

theorem searchListByName_iff (name : CString) (node : TrieNode η) :
    searchListByName name node = true ↔ lower name = lower node.label := by
  rw [searchListByName, decide_eq_true_iff, stringCompare_eq_zero_iff]

variable {name : CString} {c : TrieNode η}

theorem findChild_eq_some (h : findChildTrieNode node name = some c) :
    c ∈ node.children ∧ lower name = lower c.label :=
  ⟨mem_of_find?_eq_some h, (searchListByName_iff name c).mp (find?_some h)⟩

theorem findChild_eq_none (h : findChildTrieNode node name = none) :
    ∀ c ∈ node.children, lower name ≠ lower c.label := by
  intro c hc heq
  exact find?_eq_none.mp h c hc ((searchListByName_iff name c).mpr heq)

theorem getNodeVarChild_eq_some (h : getNodeVarChild node = some c) :
    c ∈ node.children ∧ node.children = c :: node.children.tail ∧ c.varType ≠ .none := by
  unfold getNodeVarChild at h
  split at h
  · rename_i first rest hchildren
    obtain ⟨hvar, ⟨⟩⟩ := ite_none_right_eq_some.mp h
    rw [hchildren]
    exact ⟨mem_cons_self, rfl, hvar⟩
  · cases h

end

variable {node : TrieNode η} {table : Table η}

theorem Rep.layer (h : Rep node table) : Layer node table := by
  cases h with
  | intro layer _ => exact layer

theorem Rep.children (h : Rep node table) :
    ∀ c ∈ node.children, Rep c (under lower c.place table) := by
  cases h with
  | intro _ children => exact children

section

variable {node c d v : TrieNode η} {table : Table η}

section

variable (h : Layer node table) (hc : c ∈ node.children)
include h hc

theorem Layer.unique (hd : d ∈ node.children) (hlabel : lower c.label = lower d.label) : c = d :=
  inj_on_of_nodup_map h.labels hc hd hlabel

theorem Layer.getNodeVarChild_eq (hvar : c.varType ≠ .none) : getNodeVarChild node = some c := by
  unfold getNodeVarChild
  split
  · rename_i first rest hchildren
    have htail := h.first
    rw [hchildren] at hc htail
    obtain rfl | hrest := mem_cons.mp hc
    · exact if_pos hvar
    · exact absurd (htail c hrest) hvar
  · rename_i hchildren
    rw [hchildren] at hc
    cases hc

theorem Layer.unique_place (hd : d ∈ node.children) (hplace : c.place = d.place) : c = d := by
  unfold TrieNode.place at hplace
  split at hplace
  · split at hplace
    · exact h.unique hc hd (Place.literal.inj hplace)
    · cases hplace
  · split at hplace
    · cases hplace
    · rename_i hcvar hdvar
      exact some.inj ((h.getNodeVarChild_eq hc hcvar).symm.trans (h.getNodeVarChild_eq hd hdvar))

end

variable {segment : Segment CString} {p : Pattern CString} {x : UriHandlerContainer η}

theorem TrieNode.Takes.congr (h : c.Takes segment) (hlabel : v.label = c.label)
    (hvar : v.varType = c.varType) : v.Takes segment := by
  cases segment with
  | literal text => exact ⟨hvar.trans h.1, hlabel ▸ h.2⟩
  | wildcard name => exact ⟨hvar.trans h.1, hlabel.trans h.2⟩

/-- A child that gets one more pattern, or is new, in the place of the pattern's first segment. -/
theorem Rep.extend (h : Rep node table) {children : List (TrieNode η)} (hv : v ∈ children)
    (hrep : Rep v (under lower v.place table ++ [(p, x)])) (htakes : v.Takes segment)
    (hnew : ∀ c ∈ children, c = v ∨ c ∈ node.children ∧ c.place ≠ v.place)
    (hold : ∀ c ∈ node.children, c ∈ children ∨ v.label = c.label ∧ v.varType = c.varType)
    (hlabels : (children.map fun c => lower c.label).Nodup)
    (hfirst : ∀ c ∈ children.tail, c.varType = .none) (hundirected : v.directive = none) :
    Rep { node with children := children } (table ++ [(segment :: p, x)]) := by
  have hentry : (segment :: p, x) ∈ table ++ [(segment :: p, x)] := mem_append_right _ mem_cons_self
  refine .intro ⟨fun y => ?_, h.layer.plain, fun segment' q y hmem => ?_, fun c hc => ?_, hlabels,
    hfirst, fun c hc => ?_⟩ fun c hc => ?_
  · -- the handler of the node itself does not change
    rw [mem_append, mem_singleton]
    refine (h.layer.handlers y).trans ⟨.inl, fun hmem => hmem.resolve_right fun heq => ?_⟩
    cases congrArg Prod.fst heq
  · rw [mem_append, mem_singleton] at hmem
    obtain hmem | heq := hmem
    · obtain ⟨c, hc, hctakes⟩ := h.layer.covered segment' q y hmem
      obtain hkept | ⟨hlabel, hvar⟩ := hold c hc
      · exact ⟨c, hkept, hctakes⟩
      · exact ⟨v, hv, hctakes.congr hlabel hvar⟩
    · obtain ⟨rfl, -⟩ := cons.inj (congrArg Prod.fst heq)
      exact ⟨v, hv, htakes⟩
  · obtain rfl | ⟨hcnode, -⟩ := hnew c hc
    · exact ⟨segment, p, x, hentry, htakes⟩
    · obtain ⟨segment', q, y, hmem, hctakes⟩ := h.layer.used c hcnode
      exact ⟨segment', q, y, mem_append_left _ hmem, hctakes⟩
  · obtain rfl | ⟨hcnode, -⟩ := hnew c hc
    · exact hundirected
    · exact h.layer.undirected c hcnode
  · rw [under_append_cons, ← htakes.place_eq]
    obtain rfl | ⟨hcnode, hplace⟩ := hnew c hc
    · rw [if_pos rfl]
      exact hrep
    · rw [if_neg (Ne.symm hplace), append_nil]
      exact h.children c hcnode

theorem Rep.replace (h : Rep node table) {before after : List (TrieNode η)}
    (hchildren : node.children = before ++ c :: after) (htakes : c.Takes segment)
    (hlabel : v.label = c.label) (hvar : v.varType = c.varType) (hdirective : v.directive = none)
    (hrep : Rep v (under lower c.place table ++ [(p, x)])) :
    Rep { node with children := before ++ v :: after } (table ++ [(segment :: p, x)]) := by
  have hplace : v.place = c.place := by rw [TrieNode.place, TrieNode.place, hvar, hlabel]
  have hc : c ∈ node.children := by
    rw [hchildren]
    exact mem_append_right _ mem_cons_self
  have hnodup := h.layer.labels
  rw [hchildren, map_append, map_cons] at hnodup
  apply h.extend (mem_append_right _ mem_cons_self) (hplace ▸ hrep) (htakes.congr hlabel hvar)
  · intro d hd
    rw [mem_append, mem_cons] at hd
    -- the labels before and after `c` are not that of `c`
    have hother : d ∈ before ∨ d ∈ after → d ∈ node.children ∧ d.place ≠ v.place := by
      intro hside
      have hdmem : d ∈ node.children := by
        rw [hchildren, mem_append, mem_cons]
        exact hside.imp_right .inr
      refine ⟨hdmem, fun heq => ?_⟩
      obtain rfl := h.layer.unique_place hdmem hc (heq.trans hplace)
      rw [nodup_middle, nodup_cons, ← map_append] at hnodup
      exact hnodup.1 (mem_map_of_mem (mem_append.mpr hside))
    obtain hbefore | rfl | hafter := hd
    · exact .inr (hother (.inl hbefore))
    · exact .inl rfl
    · exact .inr (hother (.inr hafter))
  · intro d hd
    rw [hchildren, mem_append, mem_cons] at hd
    rw [mem_append, mem_cons]
    obtain hbefore | rfl | hafter := hd
    · exact .inl (.inl hbefore)
    · exact .inr ⟨hlabel, hvar⟩
    · exact .inl (.inr (.inr hafter))
  · rw [map_append, map_cons, hlabel]
    exact hnodup
  · have hfirst := h.layer.first
    rw [hchildren] at hfirst
    cases before with
    | nil => exact hfirst
    | cons b before =>
      intro d hd
      rw [cons_append, tail_cons, mem_append, mem_cons] at hd
      obtain hbefore | rfl | hafter := hd
      · exact hfirst d (mem_append_left _ hbefore)
      · exact hvar.trans (hfirst c (mem_append_right _ mem_cons_self))
      · exact hfirst d (mem_append_right _ (mem_cons_of_mem _ hafter))
  · exact hdirective

theorem Layer.under_eq_nil (h : Layer node table) {place : Place CString}
    (hfree : ∀ c ∈ node.children, c.place ≠ place) : under lower place table = [] := by
  apply eq_nil_iff_forall_not_mem.mpr
  rintro ⟨p, x⟩ hmem
  obtain ⟨segment, hplace, htable⟩ := mem_under.mp hmem
  obtain ⟨c, hc, htakes⟩ := h.covered segment p x htable
  exact hfree c hc (htakes.place_eq.trans hplace)

/-- A new child begins with one pattern. -/
theorem Rep.insert (h : Rep node table) {children : List (TrieNode η)}
    (hperm : children.Perm (v :: node.children)) (htakes : v.Takes segment)
    (hfresh : ∀ c ∈ node.children, lower c.label ≠ lower v.label ∧ c.place ≠ v.place)
    (hfirst : ∀ c ∈ children.tail, c.varType = .none) (hdirective : v.directive = none)
    (hrep : Rep v [(p, x)]) :
    Rep { node with children := children } (table ++ [(segment :: p, x)]) := by
  have hmem : ∀ c, c ∈ children ↔ c = v ∨ c ∈ node.children := fun c => hperm.mem_iff.trans mem_cons
  apply h.extend ((hmem v).mpr (.inl rfl)) _ htakes _ _ _ hfirst hdirective
  · rw [h.layer.under_eq_nil fun c hc => (hfresh c hc).2]
    exact hrep
  · intro c hc
    exact ((hmem c).mp hc).imp_right fun hnode => ⟨hnode, (hfresh c hnode).2⟩
  · exact fun c hc => .inl ((hmem c).mpr (.inr hc))
  · rw [(hperm.map _).nodup_iff, map_cons, nodup_cons]
    refine ⟨fun hlabel => ?_, h.layer.labels⟩
    obtain ⟨c, hc, heq⟩ := mem_map.mp hlabel
    exact (hfresh c hc).1 heq

end

/-! ## Registration -/

/-- The first step of a registration with a basic token. -/
inductive Registers (directives : IcHashMap CString Directive) (container : UriHandlerContainer η)
    (tok : CString) (toks : List CString) (node : TrieNode η) : TrieNode η → AddResult → Prop
  | conflict : Registers directives container tok toks node node .dupVar
  | knownVariable {varNode child : TrieNode η} {result : AddResult} (hvar : isVariable tok = true)
      (hchild : getNodeVarChild node = some varNode)
      (hname : lower (variableName tok) = lower varNode.label)
      (hrest : registerFrom directives container toks varNode = some (child, result)) :
      Registers directives container tok toks node
        { node with children := child :: node.children.tail } result
  | newVariable {child : TrieNode η} {result : AddResult} (hvar : isVariable tok = true)
      (hchild : getNodeVarChild node = none)
      (hrest : registerFrom directives container toks (createVarNode (variableName tok) none) =
        some (child, result)) :
      Registers directives container tok toks node
        { node with children := child :: node.children } result
  | knownLiteral {found child : TrieNode η} {result : AddResult} (hvar : isVariable tok = false)
      (hchild : findChildTrieNode node tok = some found)
      (hrest : registerFrom directives container toks found = some (child, result)) :
      Registers directives container tok toks node
        { node with children := replaceFirst (searchListByName tok) child node.children } result
  | newLiteral {child : TrieNode η} {result : AddResult} (hvar : isVariable tok = false)
      (hchild : findChildTrieNode node tok = none)
      (hrest : registerFrom directives container toks (createNode tok) = some (child, result)) :
      Registers directives container tok toks node
        { node with children := node.children ++ [child] } result

section

variable {directives : IcHashMap CString Directive} {container : UriHandlerContainer η}
  {tok : CString} {toks : List CString} {node node' : TrieNode η} {result : AddResult}

theorem parseVariable_basic {varName : CString} (h : '#' ∉ varName) :
    parseVariable directives varName = .ok (varName, none) := by
  have hdrop : varName.dropWhile (· ≠ '#') = [] := by
    rw [dropWhile_eq_nil_iff]
    intro c hc
    exact decide_eq_true fun heq => h (heq ▸ hc)
  rw [parseVariable, hdrop]

theorem registers_of_cons (htok : tok ≠ [] ∧ BasicToken tok)
    (h : registerFrom directives container (tok :: toks) node = some (node', result)) :
    Registers directives container tok toks node node' result := by
  rw [registerFrom, if_neg htok.1] at h
  split at h
  · -- the name of the variable fits and there is no directive, so only the children matter
    rename_i hvar
    obtain ⟨hhash, hlength⟩ := htok.2 hvar
    rw [if_neg (by unfold varNameSize; omega), parseVariable_basic hhash] at h
    dsimp only at h
    split at h
    · rename_i varNode hchild
      split at h
      · rename_i hsame
        obtain ⟨⟨child, r⟩, hrest, ⟨⟩⟩ := map_eq_some_iff.mp h
        exact .knownVariable hvar hchild ((stringCompare_eq_zero_iff _ _).mp hsame.1) hrest
      · cases h
        exact .conflict
    · rename_i hchild
      obtain ⟨⟨child, r⟩, hrest, ⟨⟩⟩ := map_eq_some_iff.mp h
      exact .newVariable hvar hchild hrest
  · rename_i hvar
    have hliteral : isVariable tok = false := Bool.eq_false_iff.mpr hvar
    split at h
    · rename_i found hchild
      obtain ⟨⟨child, r⟩, hrest, ⟨⟩⟩ := map_eq_some_iff.mp h
      exact .knownLiteral hliteral hchild hrest
    · rename_i hchild
      obtain ⟨⟨child, r⟩, hrest, ⟨⟩⟩ := map_eq_some_iff.mp h
      exact .newLiteral hliteral hchild hrest

theorem setHandler_cases (h : setHandler node container = (node', result)) :
    (node.handler ≠ none ∧ node' = node ∧ result = .dupHandler) ∨
      (node.handler = none ∧ node' = { node with
        handler := some container.handler
        handlerDesc := container.description <|> node.handlerDesc } ∧ result = .addOk) := by
  unfold setHandler at h
  split at h
  · rename_i handler hhandler
    cases h
    exact .inl ⟨by rw [hhandler]; exact some_ne_none _, rfl, rfl⟩
  · cases h
    exact .inr ⟨‹_›, rfl, rfl⟩

section

variable (htoks : ∀ tok ∈ toks, tok ≠ [] ∧ BasicToken tok)
include htoks

theorem registerFrom_isSome (node : TrieNode η) :
    ∃ r, registerFrom directives container toks node = some r := by
  fun_induction registerFrom directives container toks node
  case case3 tok _ _ _ hvar hlong =>
    have hshort := ((htoks tok mem_cons_self).2 hvar).2
    unfold varNameSize at hlong
    omega
  -- every other branch ends here or goes on with the other tokens in a child, old or new
  case case5 ih | case7 ih | case8 ih | case9 ih =>
    obtain ⟨r, hr⟩ := ih (forall_mem_cons.mp htoks).2
    exact ⟨_, by rw [hr]; rfl⟩
  all_goals exact ⟨_, rfl⟩

variable (h : registerFrom directives container toks node = some (node', result))
include h

theorem registerFrom_keeps :
    node'.label = node.label ∧ node'.varType = node.varType ∧ node'.directive = node.directive := by
  cases toks with
  | nil => obtain ⟨-, rfl, -⟩ | ⟨-, rfl, -⟩ := setHandler_cases (some.inj h) <;> simp
  | cons tok toks => cases registers_of_cons (htoks tok mem_cons_self) h <;> exact ⟨rfl, rfl, rfl⟩

theorem registerFrom_fresh (hchildren : node.children = []) (hhandler : node.handler = none) :
    result = .addOk := by
  induction toks generalizing node node' with
  | nil =>
    obtain ⟨htaken, -⟩ | ⟨-, -, hset⟩ := setHandler_cases (some.inj h)
    · exact absurd hhandler htaken
    · exact hset
  | cons tok toks ih =>
    obtain ⟨htok, htoks⟩ := forall_mem_cons.mp htoks
    have hnovar : getNodeVarChild node = none := by rw [getNodeVarChild, hchildren]
    have hnochild : findChildTrieNode node tok = none := by
      rw [findChildTrieNode, hchildren]
      rfl
    rw [registerFrom, if_neg htok.1] at h
    split at h
    · rename_i hvar
      obtain ⟨hhash, hlength⟩ := htok.2 hvar
      rw [if_neg (by unfold varNameSize; omega), parseVariable_basic hhash, hnovar] at h
      obtain ⟨⟨child, r⟩, hrest, ⟨⟩⟩ := map_eq_some_iff.mp h
      exact ih htoks hrest rfl rfl
    · rw [hnochild] at h
      obtain ⟨⟨child, r⟩, hrest, ⟨⟩⟩ := map_eq_some_iff.mp h
      exact ih htoks hrest rfl rfl

end

theorem replaceFirst_eq {α : Type*} {p : α → Bool} {l : List α} {a : α} (h : l.find? p = some a) :
    ∃ before after, l = before ++ a :: after ∧ ∀ b, replaceFirst p b l = before ++ b :: after := by
  induction l with
  | nil => cases h
  | cons c l ih =>
    rw [find?_cons] at h
    split at h
    · rename_i hp
      cases h
      exact ⟨[], l, rfl, fun b => by rw [replaceFirst, if_pos hp]; rfl⟩
    · rename_i hp
      obtain ⟨before, after, hl, hreplace⟩ := ih h
      refine ⟨c :: before, after, by rw [hl]; rfl, fun b => ?_⟩
      rw [replaceFirst, if_neg (by rw [hp]; exact Bool.false_ne_true), hreplace]
      rfl

theorem TrieNode.with_children {node : TrieNode η} {children : List (TrieNode η)}
    (h : children = node.children) : { node with children := children } = node := by
  subst h
  cases node
  rfl

/-- A registration that fails changes nothing. -/
theorem registerFrom_failed (htoks : ∀ tok ∈ toks, tok ≠ [] ∧ BasicToken tok)
    (h : registerFrom directives container toks node = some (node', result))
    (hfailed : result ≠ .addOk) : node' = node := by
  induction toks generalizing node node' with
  | nil =>
    obtain ⟨-, hset, -⟩ | ⟨-, -, hset⟩ := setHandler_cases (some.inj h)
    · exact hset
    · exact absurd hset hfailed
  | cons tok toks ih =>
    obtain ⟨htok, htoks⟩ := forall_mem_cons.mp htoks
    cases registers_of_cons htok h with
    | conflict => rfl
    | knownVariable _ hchild _ hrest =>
      rw [ih htoks hrest]
      exact TrieNode.with_children (getNodeVarChild_eq_some hchild).2.1.symm
    | newVariable _ _ hrest | newLiteral _ _ hrest =>
      exact absurd (registerFrom_fresh htoks hrest rfl rfl) hfailed
    | knownLiteral _ hchild hrest =>
      obtain ⟨before, after, hchildren, hreplace⟩ := replaceFirst_eq hchild
      rw [ih htoks hrest, hreplace]
      exact TrieNode.with_children hchildren.symm

end

theorem rep_nil (hchildren : node.children = []) (hhandler : node.handler = none)
    (hdesc : node.handlerDesc = none) : Rep node [] := by
  have hempty : ∀ c, c ∉ node.children := fun c hc => by
    rw [hchildren] at hc
    cases hc
  refine .intro ⟨fun x => ?_, fun _ => hdesc, fun _ _ _ hmem => absurd hmem not_mem_nil,
    fun c hc => absurd hc (hempty c), ?_, ?_, fun c hc => absurd hc (hempty c)⟩
    fun c hc => absurd hc (hempty c)
  · rw [TrieNode.container, hhandler]
    exact iff_of_false (some_ne_none _).symm not_mem_nil
  · rw [hchildren]
    exact nodup_nil
  · rw [hchildren]
    exact nofun

theorem Rep.setHandler (h : Rep node table) {container : UriHandlerContainer η}
    (hhandler : node.handler = none) :
    Rep { node with
        handler := some container.handler
        handlerDesc := container.description <|> node.handlerDesc }
          (table ++ [([], container)]) := by
  -- the node had no handler, so the table had no template that ends here
  have hfree : ∀ x, ([], x) ∉ table := by
    intro x hx
    have hnone : node.container = none := by
      rw [TrieNode.container, hhandler]
      rfl
    exact absurd ((h.layer.handlers x).mpr hx) (by rw [hnone]; exact (some_ne_none _).symm)
  have hold : ∀ segment p x, (segment :: p, x) ∈ table ++ [([], container)] →
      (segment :: p, x) ∈ table := by
    intro segment p x hmem
    obtain hmem | hmem := mem_append.mp hmem
    · exact hmem
    · cases congrArg Prod.fst (mem_singleton.mp hmem)
  refine .intro ⟨fun x => ?_, fun hnone => ?_, fun segment p x hmem => ?_, fun c hc => ?_,
    h.layer.labels, h.layer.first, h.layer.undirected⟩ fun c hc => ?_
  · have hdesc : (container.description <|> node.handlerDesc) = container.description := by
      rw [h.layer.plain hhandler]
      cases container.description <;> rfl
    rw [mem_append, mem_singleton, Prod.mk.injEq, or_iff_right (hfree x), hdesc]
    show some container = some x ↔ _
    rw [some.injEq]
    exact ⟨fun heq => ⟨rfl, heq.symm⟩, fun heq => heq.2.symm⟩
  · cases hnone
  · exact h.layer.covered segment p x (hold segment p x hmem)
  · obtain ⟨segment, p, x, hmem, htakes⟩ := h.layer.used c hc
    exact ⟨segment, p, x, mem_append_left _ hmem, htakes⟩
  · simpa [under] using h.children c hc

section

variable {directives : IcHashMap CString Directive} {container : UriHandlerContainer η}
  {tok : CString} {toks : List CString} {node node' : TrieNode η} {table : Table η}

theorem segmentOf_variable (h : isVariable tok = true) :
    segmentOf tok = .wildcard (variableName tok) := by
  rw [segmentOf, if_pos h]

theorem segmentOf_literal (h : isVariable tok = false) : segmentOf tok = .literal tok := by
  rw [segmentOf, h]
  rfl

variable {q : Pattern CString} {name : CString}

/-- The patterns under a segment are compatible with the rest of a pattern that begins with it. -/
theorem compatible_under {segment : Segment CString}
    (h : ∀ entry ∈ table, Compatible lower entry.1 (segment :: q)) :
    ∀ entry ∈ under lower (segment.place lower) table, Compatible lower entry.1 q := by
  rintro ⟨p, x⟩ hmem
  obtain ⟨segment', hplace, htable⟩ := mem_under.mp hmem
  have hcompatible := h _ htable
  cases segment with
  | literal text =>
    cases segment' with
    | literal text' => exact hcompatible (Place.literal.inj hplace)
    | wildcard name => cases hplace
  | wildcard name =>
    cases segment' with
    | literal text' => cases hplace
    | wildcard name' => exact hcompatible.2

variable (h : Rep node table)
include h

theorem Rep.takes_variable {varNode : TrieNode η}
    (hchild : getNodeVarChild node = some varNode) (hname : lower name = lower varNode.label)
    (hcompatible : ∀ entry ∈ table, Compatible lower entry.1 (.wildcard name :: q)) :
    varNode.Takes (.wildcard name) := by
  obtain ⟨hmem, -, hvar⟩ := getNodeVarChild_eq_some hchild
  obtain ⟨segment, p, x, htable, htakes⟩ := h.layer.used varNode hmem
  cases segment with
  | literal text => exact absurd htakes.1 hvar
  | wildcard name' =>
    obtain ⟨hbasic, hlabel⟩ := htakes
    refine ⟨hbasic, hlabel.trans ((hcompatible _ htable).1 ?_)⟩
    rw [hname, hlabel]

theorem Rep.takes_literal {found : TrieNode η} {text : CString}
    (hchild : findChildTrieNode node text = some found)
    (hcompatible : ∀ entry ∈ table, Compatible lower entry.1 (.literal text :: q)) :
    found.Takes (.literal text) := by
  obtain ⟨hmem, hlabel⟩ := findChild_eq_some hchild
  obtain ⟨segment, p, x, htable, htakes⟩ := h.layer.used found hmem
  cases segment with
  | literal text' => exact ⟨htakes.1, hlabel.symm⟩
  | wildcard name =>
    obtain ⟨-, rfl⟩ := htakes
    exact absurd hlabel (hcompatible _ htable)

theorem Rep.fresh_variable (hchild : getNodeVarChild node = none)
    (hcompatible : ∀ entry ∈ table, Compatible lower entry.1 (.wildcard name :: q)) :
    ∀ c ∈ node.children, c.varType = .none ∧ lower c.label ≠ lower name := by
  intro c hc
  obtain ⟨segment, p, x, htable, htakes⟩ := h.layer.used c hc
  have hvar : c.varType = .none := by
    by_contra hvar
    rw [h.layer.getNodeVarChild_eq hc hvar] at hchild
    cases hchild
  refine ⟨hvar, fun hlabel => ?_⟩
  cases segment with
  | literal text => exact hcompatible _ htable (htakes.2.symm.trans hlabel)
  | wildcard name' => cases hvar.symm.trans htakes.1

/-- A variable that is new comes before the other children. -/
theorem Rep.insert_variable {child : TrieNode η} (hchild : getNodeVarChild node = none)
    (hcompatible : ∀ entry ∈ table, Compatible lower entry.1 (.wildcard name :: q))
    (hlabel : child.label = name) (hkind : child.varType = .basic)
    (hdirective : child.directive = none) (hrep : Rep child [(q, container)]) :
    Rep { node with children := child :: node.children }
      (table ++ [(.wildcard name :: q, container)]) := by
  have hfresh := h.fresh_variable hchild hcompatible
  have hplace : child.place = .wildcard := by
    rw [TrieNode.place, hkind]
    rfl
  refine h.insert (List.Perm.refl _) ⟨hkind, hlabel⟩ (fun c hc => ?_)
    (fun c hc => (hfresh c hc).1) hdirective hrep
  obtain ⟨hcvar, hclabel⟩ := hfresh c hc
  refine ⟨hlabel ▸ hclabel, ?_⟩
  rw [hplace, TrieNode.place, if_pos hcvar]
  intro heq
  cases heq

/-- A literal that is new comes behind the other children, and so behind the variable. -/
theorem Rep.insert_literal {child : TrieNode η} {tok : CString}
    (hchild : findChildTrieNode node tok = none) (hlabel : child.label = tok)
    (hkind : child.varType = .none) (hdirective : child.directive = none)
    (hrep : Rep child [(q, container)]) :
    Rep { node with children := node.children ++ [child] }
      (table ++ [(.literal tok :: q, container)]) := by
  have hother := findChild_eq_none hchild
  have hplace : child.place = .literal (lower tok) := by
    rw [TrieNode.place, hkind, hlabel]
    rfl
  refine h.insert (perm_append_singleton child node.children) ⟨hkind, congrArg lower hlabel⟩
    (fun c hc => ?_) (fun c hc => ?_) hdirective hrep
  · have hclabel : lower c.label ≠ lower tok := Ne.symm (hother c hc)
    refine ⟨hlabel ▸ hclabel, ?_⟩
    rw [hplace, TrieNode.place]
    split
    · exact fun heq => hclabel (Place.literal.inj heq)
    · intro heq
      cases heq
  · cases hchildren : node.children with
    | nil =>
      rw [hchildren] at hc
      cases hc
    | cons first rest =>
      rw [hchildren, cons_append, tail_cons, mem_append, mem_singleton] at hc
      obtain hrest | rfl := hc
      · exact h.layer.first c (by rw [hchildren]; exact hrest)
      · exact hkind

/-- A registration adds its template to the table. -/
theorem Rep.register (htoks : ∀ tok ∈ toks, tok ≠ [] ∧ BasicToken tok)
    (hcompatible : ∀ entry ∈ table, Compatible lower entry.1 (toks.map segmentOf))
    (hreg : registerFrom directives container toks node = some (node', .addOk)) :
    Rep node' (table ++ [(toks.map segmentOf, container)]) := by
  induction toks generalizing node node' table with
  | nil =>
    obtain ⟨-, -, hset⟩ | ⟨hfree, rfl, -⟩ := setHandler_cases (some.inj hreg)
    · cases hset
    · exact h.setHandler hfree
  | cons tok toks ih =>
    obtain ⟨htok, htoks⟩ := forall_mem_cons.mp htoks
    rw [map_cons] at hcompatible ⊢
    -- a child that is there gets the rest of the pattern, by induction
    have hchild : ∀ {c child : TrieNode η}, c ∈ node.children → c.Takes (segmentOf tok) →
        registerFrom directives container toks c = some (child, .addOk) →
        Rep child (under lower c.place table ++ [(toks.map segmentOf, container)]) := by
      intro c child hc htakes hrest
      refine ih (h.children c hc) htoks ?_ hrest
      rw [htakes.place_eq]
      exact compatible_under hcompatible
    -- and so does one that is new
    have hnew : ∀ {fresh child : TrieNode η}, Rep fresh [] →
        registerFrom directives container toks fresh = some (child, .addOk) →
        Rep child [(toks.map segmentOf, container)] := fun hfresh hrest =>
      ih hfresh htoks (nofun) hrest
    cases registers_of_cons htok hreg with
    | knownVariable hvar hfound hname hrest =>
      rename_i varNode child
      rw [segmentOf_variable hvar] at hcompatible hchild ⊢
      obtain ⟨hmem, hchildren, -⟩ := getNodeVarChild_eq_some hfound
      have htakes := h.takes_variable hfound hname hcompatible
      obtain ⟨hlabel, hkind, hdirective⟩ := registerFrom_keeps htoks hrest
      have hundirected := hdirective.trans (h.layer.undirected varNode hmem)
      exact @Rep.replace _ _ _ _ _ _ _ _ h [] _ hchildren htakes hlabel hkind hundirected
        (hchild hmem htakes hrest)
    | newVariable hvar hfound hrest =>
      rename_i child
      rw [segmentOf_variable hvar] at hcompatible ⊢
      obtain ⟨hlabel, hkind, hdirective⟩ := registerFrom_keeps htoks hrest
      exact h.insert_variable hfound hcompatible hlabel hkind hdirective
        (hnew (rep_nil rfl rfl rfl) hrest)
    | knownLiteral hvar hfound hrest =>
      rename_i found child
      rw [segmentOf_literal hvar] at hcompatible hchild ⊢
      obtain ⟨hmem, -⟩ := findChild_eq_some hfound
      have htakes := h.takes_literal hfound hcompatible
      obtain ⟨hlabel, hkind, hdirective⟩ := registerFrom_keeps htoks hrest
      have hundirected := hdirective.trans (h.layer.undirected found hmem)
      obtain ⟨before, after, hchildren, hreplace⟩ := replaceFirst_eq hfound
      rw [hreplace]
      exact h.replace hchildren htakes hlabel hkind hundirected (hchild hmem htakes hrest)
    | newLiteral hvar hfound hrest =>
      rename_i child
      rw [segmentOf_literal hvar]
      obtain ⟨hlabel, hkind, hdirective⟩ := registerFrom_keeps htoks hrest
      exact h.insert_literal hfound hlabel hkind hdirective (hnew (rep_nil rfl rfl rfl) hrest)

end

/-! ## Lookup -/

/-- The map with more values in it. -/
def putAll (valuesMap : ValuesMap) (values : List (CString × CString)) : ValuesMap :=
  values.foldl (fun map value => stringHashMapPut map value.1 value.2) valuesMap

section

variable {directives : IcHashMap CString Directive} {uri : List CString} {node c : TrieNode η}
  {table : Table η} {valuesMap : ValuesMap}

theorem putVariable_basic (h : c.varType = .basic) (tok : CString) :
    putVariable directives c tok valuesMap = stringHashMapPut valuesMap c.label tok := by
  rw [putVariable, h]

variable {u : CString} {p : Pattern CString} {x : UriHandlerContainer η}

theorem Layer.exists_child (h : Layer node table) {entry : Pattern CString × _}
    (hentry : entry ∈ table) (hbegins : beginsWith lower u entry.1 = true) :
    ∃ c ∈ node.children, c.varType = .none ∧ lower c.label = lower u := by
  obtain ⟨p, x⟩ := entry
  cases p with
  | nil => cases hbegins
  | cons segment p =>
    cases segment with
    | wildcard name => cases hbegins
    | literal text =>
      obtain ⟨c, hc, hvar, hlabel⟩ := h.covered _ p x hentry
      exact ⟨c, hc, hvar, hlabel.trans (of_decide_eq_true hbegins)⟩

section

variable (h : Layer node table) (hc : c ∈ node.children)
include h hc

/-- What is under a child of the trie comes from a pattern that the child takes. -/
theorem Layer.takes_of_mem_under (hmem : (p, x) ∈ under lower c.place table) :
    ∃ segment, c.Takes segment ∧ (segment :: p, x) ∈ table := by
  obtain ⟨segment, hplace, htable⟩ := mem_under.mp hmem
  obtain ⟨d, hd, htakes⟩ := h.covered segment p x htable
  obtain rfl := h.unique_place hd hc (htakes.place_eq.trans hplace)
  exact ⟨segment, htakes, htable⟩

theorem Layer.findChild_eq (hlabel : lower u = lower c.label) :
    findChildTrieNode node u = some c := by
  cases hchild : findChildTrieNode node u with
  | none => exact absurd hlabel (findChild_eq_none hchild c hc)
  | some d =>
    obtain ⟨hd, hdlabel⟩ := findChild_eq_some hchild
    rw [h.unique hd hc (hdlabel.symm.trans hlabel)]

theorem Layer.findChild_eq_none_of_literals (hvar : c.varType ≠ .none)
    (hspelled : lower c.label ≠ lower u)
    (hliterals : ∀ entry ∈ table, beginsWith lower u entry.1 = false) :
    findChildTrieNode node u = none := by
  cases hchild : findChildTrieNode node u with
  | none => rfl
  | some d =>
    obtain ⟨hd, hdlabel⟩ := findChild_eq_some hchild
    obtain ⟨segment, p, x, htable, htakes⟩ := h.used d hd
    cases segment with
    | literal text =>
      refine absurd (hliterals _ htable) (Bool.not_eq_false _ ▸ decide_eq_true ?_)
      exact htakes.2.symm.trans hdlabel.symm
    | wildcard name =>
      -- the variable child is `c`
      have hdvar : d.varType ≠ .none := by
        rw [htakes.1]
        exact TrieVarType.noConfusion
      obtain rfl := some.inj
        ((h.getNodeVarChild_eq hd hdvar).symm.trans (h.getNodeVarChild_eq hc hvar))
      exact absurd hdlabel.symm hspelled

end

/-- What is found is the handler of a template that matches, is not shadowed, and whose
variables have the values in the map, but for those that stand for their own name. -/
theorem Rep.matches_of_locate (h : Rep node table) (hne : ∀ tok ∈ uri, tok ≠ [])
    {found : TrieNode η} {valuesMap' : ValuesMap}
    (hlocate : locateFrom directives uri node valuesMap = (some found, valuesMap'))
    (hx : found.container = some x) :
    ∃ p, (p, x) ∈ table ∧ Matches lower p uri ∧ Unshadowed lower table p uri ∧
      valuesMap' = putAll valuesMap (caught lower p uri) := by
  induction uri generalizing node table valuesMap with
  | nil =>
    obtain ⟨hfound, rfl⟩ := Prod.mk.inj hlocate
    cases hfound
    exact ⟨[], (h.layer.handlers x).mp hx, trivial, trivial, rfl⟩
  | cons u us ih =>
    have hne' := fun tok htok => hne tok (mem_cons_of_mem _ htok)
    rw [locateFrom, if_neg (hne u mem_cons_self)] at hlocate
    split at hlocate
    · rename_i child hchild
      obtain ⟨hmem, hlabel⟩ := findChild_eq_some hchild
      obtain ⟨p, hp, hmatches, hunshadowed, hvalues⟩ := ih (h.children child hmem) hne' hlocate
      obtain ⟨segment, htakes, htable⟩ := h.layer.takes_of_mem_under hmem hp
      rw [htakes.place_eq] at hunshadowed
      refine ⟨segment :: p, htable, ?_⟩
      cases segment with
      | literal text => exact ⟨⟨htakes.2.symm.trans hlabel.symm, hmatches⟩, hunshadowed, hvalues⟩
      | wildcard name =>
        -- the segment is the name of the variable
        obtain ⟨hvar, rfl⟩ := htakes
        refine ⟨hmatches, ⟨fun entry hentry => ?_, hunshadowed⟩, ?_⟩
        · rw [← Bool.not_eq_true]
          intro hbegins
          obtain ⟨d, hd, hdvar, hdlabel⟩ := h.layer.exists_child hentry hbegins
          obtain rfl := h.layer.unique hd hmem (hdlabel.trans hlabel)
          cases hvar.symm.trans hdvar
        · rw [hvalues, caught, if_pos hlabel.symm]
    · rename_i hnone
      split at hlocate
      · rename_i varNode hchild
        obtain ⟨hmem, -, hvar⟩ := getNodeVarChild_eq_some hchild
        obtain ⟨p, hp, hmatches, hunshadowed, hvalues⟩ := ih (h.children varNode hmem) hne' hlocate
        obtain ⟨segment, htakes, htable⟩ := h.layer.takes_of_mem_under hmem hp
        rw [htakes.place_eq] at hunshadowed
        refine ⟨segment :: p, htable, ?_⟩
        cases segment with
        | literal text => exact absurd htakes.1 hvar
        | wildcard name =>
          obtain ⟨hbasic, rfl⟩ := htakes
          have hspelled : lower varNode.label ≠ lower u :=
            Ne.symm (findChild_eq_none hnone varNode hmem)
          refine ⟨hmatches, ⟨fun entry hentry => ?_, hunshadowed⟩, ?_⟩
          · rw [← Bool.not_eq_true]
            intro hbegins
            obtain ⟨d, hd, -, hdlabel⟩ := h.layer.exists_child hentry hbegins
            exact findChild_eq_none hnone d hd hdlabel.symm
          · rw [hvalues, putVariable_basic hbasic, caught, if_neg hspelled]
            rfl
      · cases hlocate

/-- A template that matches and is not shadowed is found. -/
theorem Rep.locate_of_matches (h : Rep node table) (hne : ∀ tok ∈ uri, tok ≠ [])
    (hp : (p, x) ∈ table) (hmatches : Matches lower p uri)
    (hunshadowed : Unshadowed lower table p uri) :
    ∃ found, locateFrom directives uri node valuesMap =
        (some found, putAll valuesMap (caught lower p uri)) ∧ found.container = some x := by
  induction uri generalizing node table valuesMap p with
  | nil =>
    cases p with
    | nil => exact ⟨node, rfl, (h.layer.handlers x).mpr hp⟩
    | cons segment p => cases segment <;> cases hmatches
  | cons u us ih =>
    have hne' := fun tok htok => hne tok (mem_cons_of_mem _ htok)
    cases p with
    | nil => cases hmatches
    | cons segment p =>
      obtain ⟨c, hc, htakes⟩ := h.layer.covered segment p x hp
      have hunder : (p, x) ∈ under lower c.place table :=
        mem_under.mpr ⟨segment, htakes.place_eq.symm, hp⟩
      rw [locateFrom, if_neg (hne u mem_cons_self)]
      cases segment with
      | literal text =>
        obtain ⟨htext, hmatches⟩ := hmatches
        have hlabel : lower u = lower c.label := htext.symm.trans htakes.2.symm
        rw [h.layer.findChild_eq hc hlabel]
        apply ih (h.children c hc) hne' hunder hmatches
        rw [htakes.place_eq]
        exact hunshadowed
      | wildcard name =>
        obtain ⟨hliterals, hunshadowed⟩ := hunshadowed
        have hrest : ∀ valuesMap, ∃ found, locateFrom directives us c valuesMap =
            (some found, putAll valuesMap (caught lower p us)) ∧ found.container = some x := by
          intro valuesMap
          apply ih (h.children c hc) hne' hunder hmatches
          rw [htakes.place_eq]
          exact hunshadowed
        obtain ⟨hbasic, rfl⟩ := htakes
        have hvar : c.varType ≠ .none := by
          rw [hbasic]
          exact TrieVarType.noConfusion
        rw [caught]
        -- a URI that spells the name of the variable is taken for a literal, and no value is kept
        by_cases hspelled : lower c.label = lower u
        · rw [h.layer.findChild_eq hc hspelled.symm, if_pos hspelled]
          exact hrest valuesMap
        · rw [h.layer.findChild_eq_none_of_literals hc hvar hspelled hliterals,
            h.layer.getNodeVarChild_eq hc hvar, if_neg hspelled]
          dsimp only
          rw [putVariable_basic hbasic]
          exact hrest _

end

end ZilkerSdk.Url
