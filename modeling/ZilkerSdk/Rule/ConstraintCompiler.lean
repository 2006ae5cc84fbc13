import ZilkerSdk.Rule.ConstraintScript

/-!
# What the script of a rule decides

The script is compared with the meaning of the constraints.  The operator between two operands of
the expression is that of the first one, not that of the node they belong to, and the function of a
node without time constraints returns true.  So the script is right if the operators that are
written are the ones that are meant.

That is so for an `and` node if all its children are `and` nodes, and for an `or` node with time
constraints if all its children are `or` nodes.  In an `or` node without time constraints the last
child must be an `and` node, since the function of the node counts as true, and the others must be
`or` nodes.  For all other rules there are truth values of the time constraints for which the script
is wrong.
-/

namespace ZilkerSdk.Rule

open Lib List Partial

variable {τ : Type*}

/-! ## Rules that are written in order -/

mutual

/-- The operators that are written within a constraint are those that are meant. -/
def inOrder : Constraint τ → Bool
  | .node _ .and _ children => children.all (·.logic = .and) && inOrderAll children
  | .node _ .or times children =>
    (if times.isEmpty then
      children.dropLast.all (·.logic = .or) && children.getLast?.all (·.logic = .and)
    else children.all (·.logic = .or)) && inOrderAll children

def inOrderAll : List (Constraint τ) → Bool
  | [] => true
  | c :: cs => inOrder c && inOrderAll cs

end

/-- All constraints of a rule must be met, so an operator between two of them is meant to be
`and`. -/
def ruleInOrder (cs : List (Constraint τ)) : Bool :=
  cs.dropLast.all (·.logic = .and) && inOrderAll cs

theorem inOrderAll_eq_all (cs : List (Constraint τ)) : inOrderAll cs = cs.all inOrder := by
  induction cs with
  | nil => rfl
  | cons c cs ih => rw [inOrderAll, all_cons, ih]

/-! ## The function of a node -/

section

variable (truth : τ → Bool)

theorem own_nil (logic : LogicalOp) : own truth logic [] = true := rfl

/-- The updates of the variable, from the value it begins with. -/
theorem foldl_update (logic : LogicalOp) (times : List τ) (b : Bool) :
    (times.map (Statement.update logic)).foldl (Statement.run truth) b =
      match logic with
      | .and => b && times.all truth
      | .or => b || times.any truth := by
  induction times generalizing b with
  | nil => cases logic <;> simp
  | cons time times ih => cases logic <;> simp [Statement.run, ih, Bool.and_assoc, Bool.or_assoc]

theorem own_and (times : List τ) : own truth .and times = times.all truth := by
  cases times with
  | nil => rfl
  | cons time times => exact foldl_update truth .and times (truth time)

theorem own_or (h : times ≠ []) : own truth .or times = times.any truth := by
  cases times with
  | nil => exact absurd rfl h
  | cons time times => exact foldl_update truth .or times (truth time)

theorem own_of_forall (logic : LogicalOp) (h : ∀ t ∈ times, truth t = true) :
    own truth logic times = true := by
  cases logic with
  | and => rw [own_and, all_eq_true.mpr h]
  | or =>
    cases times with
    | nil => rfl
    | cons time times =>
      rw [own_or truth (cons_ne_nil _ _), any_cons, h time mem_cons_self, Bool.true_or]

end

variable {other truth : τ → Bool} {times : List τ} {address : Nat} {logic : LogicalOp}
  {children : List (Constraint τ)} {c : Constraint τ}

theorem own_congr (logic : LogicalOp) (h : ∀ t ∈ times, truth t = other t) :
    own truth logic times = own other logic times := by
  cases logic with
  | and => rw [own_and, own_and, all_congr_of_mem h]
  | or =>
    by_cases hnil : times = []
    · rw [hnil]
      rfl
    · rw [own_or truth hnil, own_or other hnil, any_congr_of_mem h]

/-! ## Truth values that count -/

theorem times_subset (hc : c ∈ children) {t : τ} (ht : t ∈ c.times) :
    t ∈ (Constraint.node address logic times children).times := by
  rw [Constraint.times, Constraint.timesAll_eq_flatMap]
  exact mem_append_right _ (mem_flatMap_of_mem hc ht)

theorem own_subset {t : τ} (ht : t ∈ times) :
    t ∈ (Constraint.node address logic times children).times := by
  exact mem_append_left _ ht

theorem generated_congr (h : ∀ t ∈ c.times, truth t = other t) :
    generated truth c = generated other c := by
  induction c with
  | node address logic times children ih =>
    have hchildren : ∀ c ∈ children, generated truth c = generated other c :=
      fun c hc => ih c hc fun t ht => h t (times_subset hc ht)
    rw [generated_node, generated_node, follow_congr hchildren,
      own_congr logic fun t ht => h t (own_subset ht)]

theorem meaning_congr (h : ∀ t ∈ c.times, truth t = other t) :
    meaning truth c = meaning other c := by
  induction c with
  | node address logic times children ih =>
    have hchildren : ∀ c ∈ children, meaning truth c = meaning other c :=
      fun c hc => ih c hc fun t ht => h t (times_subset hc ht)
    have htimes : ∀ t ∈ times, truth t = other t := fun t ht => h t (own_subset ht)
    cases logic with
    | and =>
      rw [meaning, meaning, meaningAll_eq_all, meaningAll_eq_all, all_congr_of_mem htimes,
        all_congr_of_mem hchildren]
    | or =>
      rw [meaning, meaning, meaningAny_eq_any, meaningAny_eq_any, any_congr_of_mem htimes,
        any_congr_of_mem hchildren]

theorem generated_of_forall (h : ∀ t ∈ c.times, truth t = true) : generated truth c = true := by
  induction c with
  | node address logic times children ih =>
    have hchildren : ∀ c ∈ children, generated truth c = true :=
      fun c hc => ih c hc fun t ht => h t (times_subset hc ht)
    have hvalue := @value_follow _ (generated truth) Constraint.logic children hchildren .start rfl
    rw [generated_node, own_of_forall truth logic fun t ht => h t (own_subset ht)]
    simpa [operand] using hvalue

theorem all_const {α : Type*} {xs : List α} {p : α → Bool} {b : Bool} (h : ∀ x ∈ xs, p x = b) :
    xs.all p = (xs.isEmpty || b) := by
  induction xs with
  | nil => rfl
  | cons x xs ih =>
    rw [all_cons, h x mem_cons_self, ih fun y hy => h y (mem_cons_of_mem x hy)]
    cases b <;> simp

theorem any_const {α : Type*} {xs : List α} {p : α → Bool} {b : Bool} (h : ∀ x ∈ xs, p x = b) :
    xs.any p = (!xs.isEmpty && b) := by
  rw [any_eq_not_all_not, all_const fun x hx => congrArg not (h x hx)]
  simp

/-- A constraint that is not empty has the truth value that all its time constraints have. -/
theorem meaning_of_forall {b : Bool} (hc : c.NonEmpty) (h : ∀ t ∈ c.times, truth t = b) :
    meaning truth c = b := by
  induction c with
  | node address logic times children ih =>
    have hchildren : ∀ c ∈ children, meaning truth c = b := fun c hmem =>
      ih c hmem ((Constraint.nonEmptyAll_iff children).mp hc.2 c hmem) fun t ht =>
        h t (times_subset hmem ht)
    have htimes : ∀ t ∈ times, truth t = b := fun t ht => h t (own_subset ht)
    cases logic with
    | and =>
      rw [meaning, meaningAll_eq_all, all_const htimes, all_const hchildren]
      cases b with
      | true => simp
      | false => simpa [or_iff_not_imp_left] using hc.1
    | or =>
      rw [meaning, meaningAny_eq_any, any_const htimes, any_const hchildren]
      cases b with
      | true => simpa using hc.1
      | false => simp

/-! ## Rules that are in order -/

/-- The script decides what the constraint means. -/
def Faithful (c : Constraint τ) : Prop := ∀ truth : τ → Bool, generated truth c = meaning truth c

section

variable {address : Nat} {times : List τ} {children : List (Constraint τ)}

variable (truth : τ → Bool)

theorem generated_and (h : ∀ c ∈ children, c.logic = .and) :
    generated truth (.node address .and times children) =
      (times.all truth && children.all (generated truth)) := by
  rw [generated_node, follow_and h, own_and]
  simp [operand, start, value, Bool.and_comm]

theorem generated_or (htimes : times ≠ []) (h : ∀ c ∈ children, c.logic = .or) :
    generated truth (.node address .or times children) =
      (times.any truth || children.any (generated truth)) := by
  rw [generated_node, start, follow_or h, own_or truth htimes]
  simp [operand, value, Bool.or_comm]

theorem generated_or_nil {first : List (Constraint τ)} {last : Constraint τ}
    (h : ∀ c ∈ first, c.logic = .or) (hlast : last.logic = .and) :
    generated truth (.node address .or [] (first ++ [last])) =
      (first ++ [last]).any (generated truth) := by
  rw [generated_node, start, follow_append, follow_or h, follow_cons, follow_nil, hlast,
    own_nil]
  simp [operand, join, value]

end

/-- If it is in order, a constraint becomes what it means. -/
theorem faithful_of_inOrder (hc : c.NonEmpty) (h : inOrder c = true) : Faithful c := by
  induction c with
  | node address logic times children ih =>
    intro truth
    have hinner :
        inOrderAll children = true → ∀ c ∈ children, generated truth c = meaning truth c := by
      intro hall c hmem
      rw [inOrderAll_eq_all, all_eq_true] at hall
      exact ih c hmem ((Constraint.nonEmptyAll_iff children).mp hc.2 c hmem) (hall c hmem) truth
    cases logic with
    | and =>
      rw [inOrder, Bool.and_eq_true, all_eq_true] at h
      rw [generated_and truth fun c hmem => by simpa using h.1 c hmem, meaning, meaningAll_eq_all,
        all_congr_of_mem (hinner h.2)]
    | or =>
      rw [inOrder, Bool.and_eq_true] at h
      -- without time constraints the last child must be an `and`
      by_cases htimes : times = []
      · subst htimes
        have hne : children ≠ [] := hc.1.resolve_left fun hne => hne rfl
        obtain ⟨first, last, rfl⟩ : ∃ first last, children = first ++ [last] :=
          ⟨_, _, (dropLast_append_getLast hne).symm⟩
        have horder : (∀ c ∈ first, c.logic = .or) ∧ last.logic = .and := by simpa using h.1
        rw [generated_or_nil truth horder.1 horder.2, meaning, meaningAny_eq_any,
          any_congr_of_mem (hinner h.2)]
        rfl
      · have horder : ∀ c ∈ children, c.logic = .or := by simpa [htimes] using h.1
        rw [generated_or truth htimes horder, meaning, meaningAny_eq_any,
          any_congr_of_mem (hinner h.2)]

/-! ## Rules that are not -/

section

open Classical in
/-- Truth values that are the same for all time constraints but some. -/
noncomputable def patch (xs : List τ) (truth : τ → Bool) (others : Bool) : τ → Bool :=
  fun t => if t ∈ xs then truth t else others

variable {xs ys : List τ} {truth : τ → Bool} {others : Bool}

theorem patch_of_mem {t : τ} (h : t ∈ xs) : patch xs truth others t = truth t := if_pos h

theorem patch_of_disjoint (h : xs.Disjoint ys) {t : τ} (ht : t ∈ ys) :
    patch xs truth others t = others := if_neg fun hx => h hx ht

theorem generated_patch (c : Constraint τ) :
    generated (patch c.times truth others) c = generated truth c :=
  generated_congr fun _ => patch_of_mem

theorem meaning_patch (c : Constraint τ) :
    meaning (patch c.times truth others) c = meaning truth c :=
  meaning_congr fun _ => patch_of_mem

variable {c : Constraint τ}

theorem generated_patch_true (h : xs.Disjoint c.times) : generated (patch xs truth true) c = true :=
  generated_of_forall fun _ => patch_of_disjoint h

theorem meaning_patch_others (hc : c.NonEmpty) (h : xs.Disjoint c.times) :
    meaning (patch xs truth others) c = others :=
  meaning_of_forall hc fun _ => patch_of_disjoint h

end

section

variable {first second : List (Constraint τ)} {c d : Constraint τ} {p : Constraint τ → Bool}

/-- The time constraints of two constraints in a list are not the same. -/
theorem disjoint_times (h : ((first ++ c :: second).flatMap Constraint.times).Nodup)
    (hd : d ∈ first ++ second) : c.times.Disjoint d.times := by
  rw [flatMap_append, flatMap_cons] at h
  obtain ⟨-, hrest, hfirst⟩ := nodup_append.mp h
  obtain ⟨-, -, hsecond⟩ := nodup_append.mp hrest
  intro t htc htd
  obtain hd | hd := mem_append.mp hd
  · exact hfirst t (mem_flatMap_of_mem hd htd) t (mem_append_left _ htc) rfl
  · exact hsecond t htc t (mem_flatMap_of_mem hd htd) rfl

/-- A constraint of a list does not share time constraints with others. -/
theorem patch_outside {cs : List (Constraint τ)} {ys : List τ} {truth : τ → Bool} {others : Bool}
    (h : (ys ++ cs.flatMap Constraint.times).Nodup) (hc : c ∈ cs) :
    ∀ t ∈ ys, patch c.times truth others t = others := by
  obtain ⟨-, -, hdisjoint⟩ := nodup_append.mp h
  intro t ht
  apply if_neg
  intro htc
  exact hdisjoint t ht t (mem_flatMap_of_mem hc htc) rfl

/-- The other constraints of a list have the value they have with constant truth values. -/
theorem generated_patch_other {truth : τ → Bool} {others : Bool}
    (h : ((first ++ c :: second).flatMap Constraint.times).Nodup) (hd : d ∈ first ++ second) :
    generated (patch c.times truth others) d = generated (fun _ => others) d :=
  generated_congr fun _ => patch_of_disjoint (disjoint_times h hd)

theorem mem_of_mem_others (h : d ∈ first ++ second) : d ∈ first ++ c :: second := by
  obtain h | h := mem_append.mp h
  · exact mem_append_left _ h
  · exact mem_append_right _ (mem_cons_of_mem c h)

theorem all_of_others (h : ∀ d ∈ first ++ second, p d = true) :
    (first ++ c :: second).all p = p c := by
  have hfirst : first.all p = true := all_eq_true.mpr fun d hd => h d (mem_append_left _ hd)
  have hsecond : second.all p = true := all_eq_true.mpr fun d hd => h d (mem_append_right _ hd)
  rw [all_append, all_cons, hfirst, hsecond, Bool.true_and, Bool.and_true]

theorem any_of_others (h : ∀ d ∈ first ++ second, p d = false) :
    (first ++ c :: second).any p = p c := by
  have hfirst : first.any p = false :=
    any_eq_false.mpr fun d hd => by simp [h d (mem_append_left _ hd)]
  have hsecond : second.any p = false :=
    any_eq_false.mpr fun d hd => by simp [h d (mem_append_right _ hd)]
  rw [any_append, any_cons, hfirst, hsecond, Bool.false_or, Bool.or_false]

/-! ### Constraints that must all be met -/

section

variable {cs : List (Constraint τ)} {ys : List τ} {last want : (τ → Bool) → Bool}
  (hnonEmpty : ∀ c ∈ cs, c.NonEmpty) (htimes : (ys ++ cs.flatMap Constraint.times).Nodup)
  (hlast : ∀ truth : τ → Bool, (∀ t ∈ ys, truth t = true) → last truth = true)
  (hwant : ∀ truth : τ → Bool, (∀ t ∈ ys, truth t = true) → want truth = true)
  (h : ∀ truth : τ → Bool,
    ((follow (generated truth) Constraint.logic cs .start).operand (last truth)).value =
      (cs.all (meaning truth) && want truth))

include hnonEmpty htimes hlast h in
/-- If an `or` stands between constraints that must all be met, what follows it is enough. -/
theorem logic_and_of_all : ∀ c ∈ cs, c.logic = .and := by
  intro c hmem
  cases hlogic : c.logic with
  | and => rfl
  | or =>
    exfalso
    have hown := hlast (patch c.times (fun _ => false) true) (patch_outside htimes hmem)
    obtain ⟨first, second, rfl⟩ := append_of_mem hmem
    obtain ⟨-, hnodup, -⟩ := nodup_append.mp htimes
    -- everything is met but `c`
    have hvalue := h (patch c.times (fun _ => false) true)
    have hothers : ∀ d ∈ second, generated (patch c.times (fun _ => false) true) d = true :=
      fun d hd => generated_patch_true (disjoint_times hnodup (mem_append_right _ hd))
    have hnot :
        (first ++ c :: second).all (meaning (patch c.times (fun _ => false) true)) = false := by
      apply all_eq_false.mpr
      refine ⟨c, hmem, ?_⟩
      rw [meaning_patch, meaning_of_forall (hnonEmpty c hmem) fun _ _ => rfl]
      exact Bool.false_ne_true
    rw [hown, value_follow_or hlogic hothers, hnot] at hvalue
    cases hvalue

include hnonEmpty htimes hlast hwant h in
theorem faithful_of_all : ∀ c ∈ cs, Faithful c := by
  intro c hmem truth
  have hlogic := logic_and_of_all hnonEmpty htimes hlast h
  have hys : ∀ t ∈ ys, patch c.times truth true t = true := patch_outside htimes hmem
  obtain ⟨first, second, rfl⟩ := append_of_mem hmem
  obtain ⟨-, hnodup, -⟩ := nodup_append.mp htimes
  have hvalue := h (patch c.times truth true)
  have hgenerated : ∀ d ∈ first ++ second, generated (patch c.times truth true) d = true :=
    fun d hd => generated_patch_true (disjoint_times hnodup hd)
  have hmeaning : ∀ d ∈ first ++ second, meaning (patch c.times truth true) d = true :=
    fun d hd => meaning_patch_others (hnonEmpty d (mem_of_mem_others hd)) (disjoint_times hnodup hd)
  rw [follow_and hlogic, hlast _ hys, hwant _ hys, all_of_others hgenerated, all_of_others hmeaning,
    generated_patch, meaning_patch] at hvalue
  simpa [operand, start, value] using hvalue

include hnonEmpty htimes hlast h in
theorem last_of_all (hcongr : ∀ truth other : τ → Bool, (∀ t ∈ ys, truth t = other t) →
      last truth = last other ∧ want truth = want other) (truth : τ → Bool) :
    last truth = want truth := by
  have hlogic := logic_and_of_all hnonEmpty htimes hlast h
  obtain ⟨-, -, hdisjoint⟩ := nodup_append.mp htimes
  have hdisjoint' : ∀ c ∈ cs, ys.Disjoint c.times := fun c hc t hy ht =>
    hdisjoint t hy t (mem_flatMap_of_mem hc ht) rfl
  have hvalue := h (patch ys truth true)
  have hgenerated : cs.all (generated (patch ys truth true)) = true :=
    all_eq_true.mpr fun c hc => generated_patch_true (hdisjoint' c hc)
  have hmeaning : cs.all (meaning (patch ys truth true)) = true :=
    all_eq_true.mpr fun c hc => meaning_patch_others (hnonEmpty c hc) (hdisjoint' c hc)
  obtain ⟨hl, hw⟩ := hcongr (patch ys truth true) truth fun t ht => patch_of_mem ht
  rw [follow_and hlogic, hgenerated, hmeaning, hl, hw] at hvalue
  simpa [operand, start, value] using hvalue

end

/-! ### Constraints of which one must be met -/

section

variable {address : Nat} {times : List τ} {children : List (Constraint τ)}
  (hnonEmpty : ∀ c ∈ children, c.NonEmpty)
  (htimes : (times ++ children.flatMap Constraint.times).Nodup)
  (h : ∀ truth : τ → Bool, generated truth (.node address .or times children) =
    (times.any truth || children.any (meaning truth)))

include hnonEmpty h in
theorem generated_zero :
    generated (fun _ => false) (.node address .or times children) = false := by
  rw [h, any_eq_false.mpr fun _ _ => Bool.false_ne_true, Bool.false_or, any_eq_false]
  intro c hc
  rw [meaning_of_forall (hnonEmpty c hc) fun _ _ => rfl]
  exact Bool.false_ne_true

variable {c : Constraint τ}

include htimes in
theorem own_patch (hc : c ∈ children) {truth : τ → Bool} {others : Bool} :
    own (patch c.times truth others) .or times = own (fun _ => others) .or times :=
  own_congr .or (patch_outside htimes hc)

include hnonEmpty h in
/-- If the time constraints of one child are met, the node is. -/
theorem generated_only (hc : c ∈ children) :
    generated (patch c.times (fun _ => true) false) (.node address .or times children) = true := by
  rw [h, Bool.or_eq_true, any_eq_true, any_eq_true]
  refine .inr ⟨c, hc, ?_⟩
  rw [meaning_patch]
  exact meaning_of_forall (hnonEmpty c hc) fun _ _ => rfl

include hnonEmpty htimes h

/-- What is written for a child is false if nothing is met. -/
theorem generated_zero_child : ∀ c ∈ children, generated (fun _ => false) c = false := by
  intro c hc
  cases hzero : generated (fun _ => false) c with
  | false => rfl
  | true =>
    -- then it makes no difference whether the child is met
    exfalso
    have honly := generated_only hnonEmpty h hc
    have hnone := generated_zero hnonEmpty h
    obtain ⟨first, second, rfl⟩ := append_of_mem hc
    obtain ⟨-, hnodup, -⟩ := nodup_append.mp htimes
    have hsame : ∀ d ∈ first ++ c :: second,
        generated (patch c.times (fun _ => true) false) d = generated (fun _ => false) d := by
      intro d hd
      obtain hd | hd := mem_append.mp hd
      · exact generated_patch_other hnodup (mem_append_left _ hd)
      · obtain rfl | hd := mem_cons.mp hd
        · rw [generated_patch, hzero]
          exact generated_of_forall fun _ _ => rfl
        · exact generated_patch_other hnodup (mem_append_right _ hd)
    rw [generated_node, follow_congr hsame, own_patch htimes hc, ← generated_node _ address, hnone]
      at honly
    cases honly

/-- While only an `and` child is met, no alternative in front of an `or` is. -/
theorem disjunction_only (hc : c ∈ children) (hlogic : c.logic = .and) :
    (follow (generated (patch c.times (fun _ => true) false)) Constraint.logic children
      .start).disjunction = false := by
  have hzero := generated_zero_child hnonEmpty htimes h
  apply disjunction_follow _ rfl
  intro d hd hor
  obtain ⟨first, second, rfl⟩ := append_of_mem hc
  obtain ⟨-, hnodup, -⟩ := nodup_append.mp htimes
  have hother : d ∈ first ++ second := by
    obtain hd | hd := mem_append.mp hd
    · exact mem_append_left _ hd
    · obtain rfl | hd := mem_cons.mp hd
      · rw [hlogic] at hor
        cases hor
      · exact mem_append_right _ hd
  rw [generated_patch_other hnodup hother]
  exact hzero d hd

theorem logic_or_of_any (hne : times ≠ []) : ∀ c ∈ children, c.logic = .or := by
  intro c hc
  cases hlogic : c.logic with
  | or => rfl
  | and =>
    exfalso
    have honly := generated_only hnonEmpty h hc
    have hown : own (fun _ => false) .or times = false := by
      rw [own_or _ hne]
      exact any_eq_false.mpr fun _ _ => Bool.false_ne_true
    rw [generated_node, own_patch htimes hc, hown, value, operand,
      disjunction_only hnonEmpty htimes h hc hlogic, Bool.and_false] at honly
    cases honly

theorem faithful_of_any
    (horder : ∀ truth : τ → Bool, generated truth (.node address .or times children) =
      (times.any truth || children.any (generated truth))) : ∀ c ∈ children, Faithful c := by
  intro c hc truth
  have hzero := generated_zero_child hnonEmpty htimes h
  have hvalue := (horder (patch c.times truth false)).symm.trans (h _)
  obtain ⟨-, hnodup, -⟩ := nodup_append.mp htimes
  have hown : times.any (patch c.times truth false) = false := by
    rw [any_const (patch_outside htimes hc), Bool.and_false]
  obtain ⟨first, second, rfl⟩ := append_of_mem hc
  have hgenerated : ∀ d ∈ first ++ second, generated (patch c.times truth false) d = false := by
    intro d hd
    rw [generated_patch_other hnodup hd]
    exact hzero d (mem_of_mem_others hd)
  have hmeaning : ∀ d ∈ first ++ second, meaning (patch c.times truth false) d = false :=
    fun d hd => meaning_patch_others (hnonEmpty d (mem_of_mem_others hd)) (disjoint_times hnodup hd)
  rwa [hown, any_of_others hgenerated, any_of_others hmeaning, generated_patch, meaning_patch,
    Bool.false_or, Bool.false_or] at hvalue

end

section

variable {address : Nat} {first : List (Constraint τ)} {last : Constraint τ}
  (hnonEmpty : ∀ c ∈ first ++ [last], c.NonEmpty)
  (htimes : ([] ++ (first ++ [last]).flatMap Constraint.times).Nodup)
  (h : ∀ truth : τ → Bool, generated truth (.node address .or [] (first ++ [last])) =
    (([] : List τ).any truth || (first ++ [last]).any (meaning truth)))

include hnonEmpty h in
/-- Without time constraints, the function of the node is true.  An `or` in front of it makes the
whole node true. -/
theorem logic_last : last.logic = .and := by
  cases hlogic : last.logic with
  | and => rfl
  | or =>
    exfalso
    have hzero := generated_zero hnonEmpty h
    rw [generated_node, own_nil, follow_append, follow_cons, follow_nil, hlogic] at hzero
    simp [join, operand, value] at hzero

include hnonEmpty htimes h in
theorem logic_first : ∀ c ∈ first, c.logic = .or := by
  intro c hc
  cases hlogic : c.logic with
  | or => rfl
  | and =>
    exfalso
    have hmem : c ∈ first ++ [last] := mem_append_left _ hc
    have honly := generated_only hnonEmpty h hmem
    have hdisj := disjunction_only hnonEmpty htimes h hmem hlogic
    have hand := logic_last hnonEmpty h
    -- the last child is not met
    have hlast : generated (patch c.times (fun _ => true) false) last = false := by
      have hzero := generated_zero_child hnonEmpty htimes h last
        (mem_append_right _ mem_cons_self)
      obtain ⟨front, back, rfl⟩ := append_of_mem hc
      rw [nil_append, append_assoc, cons_append] at htimes
      rw [generated_patch_other htimes
        (mem_append_right _ (mem_append_right _ mem_cons_self)), hzero]
    have hconj : (follow (generated (patch c.times (fun _ => true) false)) Constraint.logic
        (first ++ [last]) .start).conjunction = false := by
      rw [follow_append, follow_cons, follow_nil, hand, hlast]
      simp [join, operand]
    rw [generated_node, own_nil, value, operand, hdisj, hconj] at honly
    cases honly

end

end

/-- A constraint that becomes what it means is in order. -/
theorem inOrder_of_faithful (hc : c.NonEmpty) (htimes : c.times.Nodup) (h : Faithful c) :
    inOrder c = true := by
  induction c with
  | node address logic times children ih =>
    rw [Constraint.times, Constraint.timesAll_eq_flatMap] at htimes
    have hnonEmpty : ∀ c ∈ children, c.NonEmpty := (Constraint.nonEmptyAll_iff children).mp hc.2
    have hnodup : ∀ c ∈ children, c.times.Nodup := fun c hmem =>
      (nodup_flatMap.mp (nodup_append.mp htimes).2.1).1 c hmem
    -- it is enough that the children are faithful and the operators right
    have hinner : (∀ c ∈ children, Faithful c) → inOrderAll children = true := by
      intro hfaithful
      rw [inOrderAll_eq_all, all_eq_true]
      exact fun c hmem => ih c hmem (hnonEmpty c hmem) (hnodup c hmem) (hfaithful c hmem)
    cases logic with
    | and =>
      have hvalue : ∀ truth : τ → Bool,
          ((follow (generated truth) Constraint.logic children .start).operand
            (own truth .and times)).value = (children.all (meaning truth) && times.all truth) := by
        intro truth
        rw [← generated_node _ address, h truth, meaning, meaningAll_eq_all, Bool.and_comm]
      have hown : ∀ truth : τ → Bool, (∀ t ∈ times, truth t = true) → own truth .and times = true :=
        fun truth => own_of_forall truth .and
      have hall : ∀ truth : τ → Bool, (∀ t ∈ times, truth t = true) → times.all truth = true :=
        fun truth => all_eq_true.mpr
      have hlogic := logic_and_of_all hnonEmpty htimes hown hvalue
      rw [inOrder, hinner (faithful_of_all hnonEmpty htimes hown hall hvalue), Bool.and_true,
        all_eq_true]
      exact fun c hmem => decide_eq_true (hlogic c hmem)
    | or =>
      have hvalue : ∀ truth : τ → Bool, generated truth (.node address .or times children) =
          (times.any truth || children.any (meaning truth)) := by
        intro truth
        rw [h truth, meaning, meaningAny_eq_any]
      rw [inOrder]
      by_cases hnil : times = []
      · subst hnil
        have hne : children ≠ [] := hc.1.resolve_left fun hne => hne rfl
        obtain ⟨first, last, rfl⟩ : ∃ first last, children = first ++ [last] :=
          ⟨_, _, (dropLast_append_getLast hne).symm⟩
        have hfirst := logic_first hnonEmpty htimes hvalue
        have hlast := logic_last hnonEmpty hvalue
        have hfaithful := faithful_of_any hnonEmpty htimes hvalue fun truth =>
          generated_or_nil truth hfirst hlast
        rw [hinner hfaithful]
        simpa [hlast] using hfirst
      · have hlogic := logic_or_of_any hnonEmpty htimes hvalue hnil
        have hfaithful := faithful_of_any hnonEmpty htimes hvalue fun truth =>
          generated_or truth hnil hlogic
        rw [hinner hfaithful]
        simpa [hnil] using hlogic

/-! ## The constraints of a rule -/

section

variable {first : List (Constraint τ)} {last : Constraint τ}

theorem generatedRule_concat (truth : τ → Bool) :
    generatedRule truth (first ++ [last]) =
      ((follow (generated truth) Constraint.logic first .start).operand
        (generated truth last)).value := by
  rw [generatedRule, getLast?_concat, dropLast_concat]

theorem ruleInOrder_concat :
    ruleInOrder (first ++ [last]) = true ↔
      (∀ c ∈ first, c.logic = .and) ∧ (∀ c ∈ first, inOrder c = true) ∧ inOrder last = true := by
  simp [ruleInOrder, inOrderAll_eq_all]

theorem generatedRule_of_inOrder (hnonEmpty : ∀ c ∈ first ++ [last], c.NonEmpty)
    (h : ruleInOrder (first ++ [last]) = true) (truth : τ → Bool) :
    generatedRule truth (first ++ [last]) = (first ++ [last]).all (meaning truth) := by
  obtain ⟨hlogic, hfirst, hlast⟩ := ruleInOrder_concat.mp h
  have hmeaning : ∀ c ∈ first, generated truth c = meaning truth c := fun c hc =>
    faithful_of_inOrder (hnonEmpty c (mem_append_left _ hc)) (hfirst c hc) truth
  rw [generatedRule_concat, follow_and hlogic, all_congr_of_mem hmeaning,
    faithful_of_inOrder (hnonEmpty last (mem_append_right _ mem_cons_self)) hlast truth]
  simp [operand, start, value]

theorem ruleInOrder_of_generatedRule (hnonEmpty : ∀ c ∈ first ++ [last], c.NonEmpty)
    (htimes : ((first ++ [last]).flatMap Constraint.times).Nodup)
    (h : ∀ truth : τ → Bool,
      generatedRule truth (first ++ [last]) = (first ++ [last]).all (meaning truth)) :
    ruleInOrder (first ++ [last]) = true := by
  have hfirst : ∀ c ∈ first, c.NonEmpty := fun c hc => hnonEmpty c (mem_append_left _ hc)
  have hlast : last.NonEmpty := hnonEmpty last (mem_append_right _ mem_cons_self)
  have hnodup : (last.times ++ first.flatMap Constraint.times).Nodup := by
    rw [flatMap_append, flatMap_singleton] at htimes
    exact nodup_append_comm.mp htimes
  have hvalue : ∀ truth : τ → Bool,
      ((follow (generated truth) Constraint.logic first .start).operand
        (generated truth last)).value = (first.all (meaning truth) && meaning truth last) := by
    intro truth
    rw [← generatedRule_concat, h truth]
    simp
  have hgenerated : ∀ truth : τ → Bool, (∀ t ∈ last.times, truth t = true) →
      generated truth last = true := fun _ => generated_of_forall
  have hmeaning : ∀ truth : τ → Bool, (∀ t ∈ last.times, truth t = true) →
      meaning truth last = true := fun _ => meaning_of_forall hlast
  -- each constraint is looked at alone, with all the others met
  have hfaithful := faithful_of_all hfirst hnodup hgenerated hmeaning hvalue
  have hfaithful' : Faithful last :=
    last_of_all hfirst hnodup hgenerated hvalue fun _ _ hsame =>
      ⟨generated_congr hsame, meaning_congr hsame⟩
  obtain ⟨hnodupLast, hnodupFirst, -⟩ := nodup_append.mp hnodup
  refine ruleInOrder_concat.mpr ⟨logic_and_of_all hfirst hnodup hgenerated hvalue, ?_,
    inOrder_of_faithful hlast hnodupLast hfaithful'⟩
  intro c hc
  exact inOrder_of_faithful (hfirst c hc) ((nodup_flatMap.mp hnodupFirst).1 c hc) (hfaithful c hc)

end

end ZilkerSdk.Rule
