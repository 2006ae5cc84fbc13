import ZilkerSdk.Rule.Constraint

/-!
# The value of the script

The expression of a script as a tree of groups: a node becomes its children, each with the operator
of the child behind it, and the function of the node.
-/

namespace ZilkerSdk.Rule

open Lib List

section

variable {τ : Type*}

/-! ## The tokens of the expression -/

mutual

/-- The tokens that are written for a constraint. -/
def groupTokens : Constraint τ → List (ExprToken Nat)
  | .node address _ _ children =>
    .openParen :: (groupTokensAll children ++ [.call address] ++ [.closeParen])

/-- The tokens of constraints with the operator of each one behind it. -/
def groupTokensAll : List (Constraint τ) → List (ExprToken Nat)
  | [] => []
  | c :: cs => groupTokens c ++ [.op c.logic] ++ groupTokensAll cs

end

theorem groupTokensAll_eq (cs : List (Constraint τ)) :
    groupTokensAll cs = chainTokens groupTokens Constraint.logic cs := by
  induction cs with
  | nil => rfl
  | cons c cs ih =>
    rw [groupTokensAll, ih]
    rfl

/-- The operator behind a group, if no other one closes. -/
def separator (c : Constraint τ) (entries : List RpnEntry) : List (ExprToken Nat) :=
  if entries = [] ∨ entries.head? = some .ret then [] else [.op c.logic]

theorem separator_rpnAll (c : Constraint τ) (cs : List (Constraint τ)) (address : Nat)
    (entries : List RpnEntry) :
    separator c (rpnAll cs ++ .func address :: entries) = [.op c.logic] := by
  cases cs with
  | nil => simp [separator, rpnAll]
  | cons d cs =>
    obtain ⟨_, _, _, _⟩ := d
    simp [separator, rpnAll, rpn]

theorem buildConstraintAllowedJs_rpn (c : Constraint τ) (level : Level) (calls : List Level)
    (entries : List RpnEntry) :
    buildConstraintAllowedJs (level :: calls) (rpn c ++ entries) =
      groupTokens c ++ (separator c entries ++
        buildConstraintAllowedJs (level :: calls) entries) := by
  induction c generalizing level calls entries with
  | node address logic times children ih =>
    -- the children are followed by the function of the node
    have hchildren : ∀ (cs : List (Constraint τ)) (level : Level) (calls : List Level)
        (entries : List RpnEntry), (∀ c ∈ cs, c ∈ children) →
        buildConstraintAllowedJs (level :: calls) (rpnAll cs ++ .func address :: entries) =
          groupTokensAll cs ++
            buildConstraintAllowedJs (level :: calls) (.func address :: entries) := by
      intro cs
      induction cs with
      | nil => exact fun _ _ _ _ => rfl
      | cons c cs ihcs =>
        intro level calls entries hmem
        rw [rpnAll, append_assoc, ih c (hmem c mem_cons_self), separator_rpnAll,
          ihcs level calls entries fun d hd => hmem d (mem_cons_of_mem c hd), groupTokensAll,
          append_assoc, append_assoc]
    rw [rpn, cons_append, append_assoc, buildConstraintAllowedJs]
    show ExprToken.openParen :: buildConstraintAllowedJs _ (rpnAll children ++ .func address ::
      .ret :: entries) = _
    rw [hchildren children _ _ _ fun _ h => h, groupTokens]
    simp only [buildConstraintAllowedJs, Bool.false_eq_true, if_false, nil_append,
      cons_append, append_assoc]
    rfl

theorem buildConstraintAllowedJs_top (cs : List (Constraint τ)) (hcs : cs ≠ []) :
    buildConstraintAllowedJs [⟨none, false⟩] (rpnAll cs) =
      chainTokens groupTokens Constraint.logic cs.dropLast ++ groupTokens (cs.getLast hcs) := by
  induction cs with
  | nil => exact absurd rfl hcs
  | cons c cs ih =>
    cases cs with
    | nil =>
      rw [rpnAll, buildConstraintAllowedJs_rpn]
      simp [rpnAll, separator, buildConstraintAllowedJs, chainTokens]
    | cons d cs =>
      have hsep : separator c (rpnAll (d :: cs)) = [.op c.logic] := by
        obtain ⟨_, _, _, _⟩ := d
        simp [separator, rpnAll, rpn]
      rw [rpnAll, buildConstraintAllowedJs_rpn, hsep, ih (cons_ne_nil d cs),
        dropLast_cons_cons, getLast_cons (cons_ne_nil d cs)]
      simp [chainTokens]

/-! ## Its value -/

section

variable (truth : τ → Bool)

/-- What the function of a node returns. -/
def own (logic : LogicalOp) (times : List τ) : Bool := runBody truth (functionBody logic times)

mutual

/-- The value of what is written for a constraint. -/
def generated : Constraint τ → Bool
  | .node _ logic times children =>
    ((generatedFrom children .start).operand (own truth logic times)).value

def generatedFrom : List (Constraint τ) → Partial → Partial
  | [], p => p
  | c :: cs, p => generatedFrom cs ((p.operand (generated c)).join c.logic)

end

theorem generatedFrom_eq (cs : List (Constraint τ)) (p : Partial) :
    generatedFrom truth cs p = follow (generated truth) Constraint.logic cs p := by
  induction cs generalizing p with
  | nil => rfl
  | cons c cs ih => rw [generatedFrom, ih, follow_cons]

theorem generated_node (address : Nat) (logic : LogicalOp) (times : List τ)
    (children : List (Constraint τ)) :
    generated truth (.node address logic times children) =
      ((follow (generated truth) Constraint.logic children .start).operand
        (own truth logic times)).value := by
  rw [generated, generatedFrom_eq]

/-- The value of the expression of a rule. -/
def generatedRule (cs : List (Constraint τ)) : Bool :=
  match cs.getLast? with
  | none => true
  | some last =>
    ((follow (generated truth) Constraint.logic cs.dropLast .start).operand
      (generated truth last)).value

end

theorem functionsAll_eq_flatMap (cs : List (Constraint τ)) :
    functionsAll cs = cs.flatMap functions := by
  induction cs with
  | nil => rfl
  | cons c cs ih => rw [functionsAll, flatMap_cons, ih]

variable {truth : τ → Bool} {cs : List (Constraint τ)}

/-- If calls return what the functions of a constraint return, its tokens are an operand. -/
theorem isOperand_groupTokens {env : Nat → Bool} {c : Constraint τ}
    (h : ∀ f ∈ functions c, env f.1 = runBody truth f.2) :
    IsOperand env (groupTokens c) (generated truth c) := by
  induction c with
  | node address logic times children ih =>
    have hchild :
        ∀ child ∈ children, IsOperand env (groupTokens child) (generated truth child) := by
      intro child hchild
      apply ih child hchild
      intro f hf
      apply h f
      rw [functions, functionsAll_eq_flatMap]
      exact mem_append_left _ (mem_flatMap_of_mem hchild hf)
    have hown : env address = own truth logic times :=
      h (address, functionBody logic times) (mem_append_right _ mem_cons_self)
    rw [generated_node, groupTokens, groupTokensAll_eq, ← hown]
    exact IsOperand.group hchild (IsOperand.call address)

/-! ## The functions -/

theorem perm_functions (c : Constraint τ) : ((functions c).map Prod.fst).Perm c.addresses := by
  induction c with
  | node address logic times children ih =>
    have hall : ((functionsAll children).map Prod.fst).Perm (Constraint.addressesAll children) := by
      induction children with
      | nil => exact List.Perm.refl _
      | cons c cs ihcs =>
        rw [functionsAll, map_append, Constraint.addressesAll]
        exact (ih c mem_cons_self).append (ihcs fun d hd => ih d (mem_cons_of_mem c hd))
    rw [functions, map_append, Constraint.addresses]
    exact (perm_append_singleton address _).trans (hall.cons address)

theorem nodup_functionsAll (h : (cs.flatMap Constraint.addresses).Nodup) :
    ((functionsAll cs).map Prod.fst).Nodup := by
  have hperm : ((functionsAll cs).map Prod.fst).Perm (cs.flatMap Constraint.addresses) := by
    clear h
    induction cs with
    | nil => exact List.Perm.refl _
    | cons c cs ih =>
      rw [functionsAll, map_append, flatMap_cons]
      exact (perm_functions c).append ih
  exact hperm.nodup_iff.mpr h

theorem call_of_mem {script : Script τ} (h : (script.functions.map Prod.fst).Nodup)
    {f : Nat × List (Statement τ)} (hf : f ∈ script.functions) :
    script.call truth f.1 = runBody truth f.2 := by
  have hsome : (script.functions.reverse.find? fun g => g.1 = f.1).isSome := by
    rw [find?_isSome]
    exact ⟨f, mem_reverse.mpr hf, by simp⟩
  obtain ⟨g, hg⟩ := Option.isSome_iff_exists.mp hsome
  have hname : g.1 = f.1 := by simpa using find?_some hg
  have hmem : g ∈ script.functions := mem_reverse.mp (mem_of_find?_eq_some hg)
  rw [Script.call, hg, inj_on_of_nodup_map h hmem hf hname]
  rfl

/-- The script of a rule, evaluated. -/
theorem allowed_eq_generated (truth : τ → Bool) (h : (cs.flatMap Constraint.addresses).Nodup) :
    allowed truth cs = some (generatedRule truth cs) := by
  by_cases hcs : cs = []
  · rw [hcs]
    rfl
  · have hoperand : ∀ c ∈ cs, IsOperand ((sheensConstraints2Javascript cs).call truth)
        (groupTokens c) (generated truth c) := by
      intro c hc
      apply isOperand_groupTokens
      intro f hf
      apply call_of_mem (nodup_functionsAll h)
      show f ∈ functionsAll cs
      rw [functionsAll_eq_flatMap]
      exact mem_flatMap_of_mem hc hf
    have htranscode : transcodeConstraints cs = some (sheensConstraints2Javascript cs) := by
      rw [transcodeConstraints, if_neg (by simpa using hcs)]
    rw [allowed, htranscode]
    show evaluate _ (buildConstraintAllowedJs [⟨none, false⟩] (rpnAll cs)) = _
    rw [buildConstraintAllowedJs_top cs hcs,
      evaluate_chain (fun c hc => hoperand c (dropLast_subset cs hc))
        (hoperand _ (getLast_mem hcs)), generatedRule, getLast?_eq_some_getLast hcs]

end

end ZilkerSdk.Rule
