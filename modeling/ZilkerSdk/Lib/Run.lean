import Mathlib.Data.List.Basic

/-!
# Runs of a step function

A small library of machines that are driven by a list of inputs.  A machine is
a function `step : σ → ι → Option (σ × ο)`: from a state and an input it gives
the next state and an output, or `none` when the step has no meaning there (the
code has undefined behaviour, or the step is not enabled).

Nondeterminism lives in the inputs: the answer of a callback, the outcome of a
system call or the choice of the thread that moves next are all part of `ι`, so
"for every interleaving" is "for every list of inputs".
-/

namespace ZilkerSdk.Lib

variable {σ τ ι ο : Type*}

/-! ## Runs -/

/-- Feed the inputs to the machine one after another and collect the outputs. -/
def run (step : σ → ι → Option (σ × ο)) : σ → List ι → Option (σ × List ο)
  | s, [] => some (s, [])
  | s, i :: is =>
    match step s i with
    | none => none
    | some (s', o) => (run step s' is).map fun r => (r.1, o :: r.2)

/-- Every input of the run meets `cond` in the state in which it is given. -/
def Guarded (step : σ → ι → Option (σ × ο)) (cond : σ → ι → Prop) : σ → List ι → Prop
  | _, [] => True
  | s, i :: is => cond s i ∧ ∀ s' o, step s i = some (s', o) → Guarded step cond s' is

@[simp] theorem guarded_nil (step : σ → ι → Option (σ × ο)) (cond : σ → ι → Prop) (s : σ) :
    Guarded step cond s [] := trivial

variable {cond : σ → ι → Prop} {step : σ → ι → Option (σ × ο)} {o o' : ο} {Q : ο → Prop}
  {Inv P : σ → Prop} {R : σ → τ → Prop} {s s' s'' : σ} {i : ι} {is is' : List ι} {os os' : List ο}

/-- A run meets a condition that every one of its inputs meets in every state. -/
theorem guarded_of_forall (step : σ → ι → Option (σ × ο)) (s : σ)
    (h : ∀ i ∈ is, ∀ s, cond s i) : Guarded step cond s is := by
  induction is generalizing s with
  | nil => trivial
  | cons i is ih =>
    refine ⟨h i List.mem_cons_self s, fun s' _ _ => ih s' fun j hj => ?_⟩
    exact h j (List.mem_cons_of_mem _ hj)

/-- A condition on the inputs alone can be added to the guards. -/
theorem Guarded.and_forall {P : ι → Prop} (h : Guarded step cond s is)
    (hP : ∀ i ∈ is, P i) : Guarded step (fun s i => P i ∧ cond s i) s is := by
  induction is generalizing s with
  | nil => trivial
  | cons i is ih =>
    refine ⟨⟨hP i List.mem_cons_self, h.1⟩, fun s' o hstep => ih (h.2 s' o hstep) fun j hj => ?_⟩
    exact hP j (List.mem_cons_of_mem _ hj)

/-- Every run meets the condition that asks for nothing. -/
theorem guarded_true (step : σ → ι → Option (σ × ο)) (s : σ) (is : List ι) :
    Guarded step (fun _ _ => True) s is :=
  guarded_of_forall step s fun _ _ _ => trivial

/-- A step that always gives the same output. -/
theorem map_output_eq_some_iff {x : Option σ} :
    (x.map fun s => (s, o)) = some (s', o') ↔ x = some s' ∧ o = o' := by
  rw [Option.map_eq_some_iff]
  constructor
  · rintro ⟨s, hs, heq⟩
    cases heq
    exact ⟨hs, rfl⟩
  · rintro ⟨hs, rfl⟩
    exact ⟨s', hs, rfl⟩

/-- A run that begins with `i` is a step followed by a run. -/
theorem run_cons_eq_some :
    run step s (i :: is) = some (s'', os) ↔
      ∃ s' o os', step s i = some (s', o) ∧ run step s' is = some (s'', os') ∧ os = o :: os' := by
  constructor
  · intro h
    simp only [run] at h
    split at h
    · cases h
    · rename_i s' o hstep
      simp only [Option.map_eq_some_iff, Prod.mk.injEq] at h
      obtain ⟨⟨r, os'⟩, hrun, hr, ho⟩ := h
      exact ⟨s', o, os', hstep, by rw [hrun]; simp [← hr], ho.symm⟩
  · rintro ⟨s', o, os', hstep, hrun, rfl⟩
    simp [run, hstep, hrun]

/-- One run after another. -/
theorem run_append (hfirst : run step s is = some (s', os))
    (hrest : run step s' is' = some (s'', os')) :
    run step s (is ++ is') = some (s'', os ++ os') := by
  induction is generalizing s os with
  | nil =>
    cases hfirst
    exact hrest
  | cons i is ih =>
    obtain ⟨s₁, o, os₁, h₁, hrun, rfl⟩ := run_cons_eq_some.mp hfirst
    exact run_cons_eq_some.mpr ⟨s₁, o, os₁ ++ os', h₁, ih hrun, rfl⟩

/-- Some run leads from the state to one with a property. -/
def Leads (step : σ → ι → Option (σ × ο)) (P : σ → Prop) (s : σ) : Prop :=
  ∃ is s' os, run step s is = some (s', os) ∧ P s'

theorem Leads.here (h : P s) : Leads step P s :=
  ⟨[], s, [], rfl, h⟩

theorem Leads.of_step (i : ι) (h : ∃ s' o, step s i = some (s', o) ∧ Leads step P s') :
    Leads step P s := by
  obtain ⟨s', o, hstep, is, s'', os, hrun, hP⟩ := h
  exact ⟨i :: is, s'', o :: os, run_cons_eq_some.mpr ⟨s', o, os, hstep, hrun, rfl⟩, hP⟩

theorem Leads.trans {Q : σ → Prop} (h : Leads step P s)
    (hQ : ∀ s', P s' → Leads step Q s') : Leads step Q s := by
  obtain ⟨is, s', os, hrun, hP⟩ := h
  obtain ⟨is', s'', os', hrun', hQ'⟩ := hQ s' hP
  exact ⟨is ++ is', s'', os ++ os', run_append hrun hrun', hQ'⟩

/-- A step that is enabled by a condition. -/
theorem of_enabled {p : Prop} [Decidable p]
    (h : (if p then some (s, o) else none) = some (s', o')) : p ∧ s' = s ∧ o' = o := by
  rw [Option.ite_none_right_eq_some, Option.some.injEq, Prod.mk.injEq] at h
  exact ⟨h.1, h.2.1.symm, h.2.2.symm⟩

/-- Along a concrete run the guards can be evaluated. -/
instance Guarded.decidable (step : σ → ι → Option (σ × ο)) (cond : σ → ι → Prop)
    [∀ s i, Decidable (cond s i)] : (s : σ) → (is : List ι) → Decidable (Guarded step cond s is)
  | _, [] => isTrue trivial
  | s, i :: is =>
    have := (Guarded.decidable step cond · is)
    decidable_of_iff (cond s i ∧ ∀ r ∈ step s i, Guarded step cond r.1 is) (by simp [Guarded])

/-! ## Invariants -/

/-- A property kept by every step that meets `cond` is kept by every run whose
steps all meet `cond`. -/
theorem run_invariant (hstep : ∀ s i s' o, Inv s → cond s i → step s i = some (s', o) → Inv s')
    (hs : Inv s) (hg : Guarded step cond s is) (hrun : run step s is = some (s', os)) :
    Inv s' := by
  induction is generalizing s os with
  | nil =>
    cases hrun
    exact hs
  | cons i is ih =>
    obtain ⟨s₁, o, os', h₁, hrest, -⟩ := run_cons_eq_some.mp hrun
    exact ih (hstep s i s₁ o hs hg.1 h₁) (hg.2 s₁ o h₁) hrest

/-- If every step that meets `cond` is possible and keeps a property, then so does every run whose
steps all meet `cond`. -/
theorem run_progress (hstep : ∀ s i, Inv s → cond s i → ∃ s' o, step s i = some (s', o) ∧ Inv s')
    (hs : Inv s) (hg : Guarded step cond s is) :
    ∃ s' os, run step s is = some (s', os) ∧ Inv s' := by
  induction is generalizing s with
  | nil => exact ⟨s, [], rfl, hs⟩
  | cons i is ih =>
    obtain ⟨s₁, o, h₁, hs₁⟩ := hstep s i hs hg.1
    obtain ⟨s', os, hrun, hs'⟩ := ih hs₁ (hg.2 s₁ o h₁)
    exact ⟨s', o :: os, run_cons_eq_some.mpr ⟨s₁, o, os, h₁, hrun, rfl⟩, hs'⟩

/-- A run that begins with a possible step is guarded if the step and the rest are. -/
theorem guarded_cons_iff (h : step s i = some (s', o)) :
    Guarded step cond s (i :: is) ↔ cond s i ∧ Guarded step cond s' is := by
  refine and_congr_right fun _ => ⟨fun hall => hall s' o h, fun hrest s₂ o₂ h₂ => ?_⟩
  rw [h, Option.some.injEq, Prod.mk.injEq] at h₂
  exact h₂.1 ▸ hrest

/-- If a step that does not meet `cond` leads to a bad state, and from bad states one only
comes to bad states, then a run that is not guarded ends in a bad state. -/
theorem run_of_not_guarded {Bad : σ → Prop}
    (hstep : ∀ s i s' o, Inv s → cond s i → step s i = some (s', o) → Inv s')
    (hspoil : ∀ s i s' o, Inv s → ¬ cond s i → step s i = some (s', o) → Bad s')
    (hbad : ∀ s i s' o, Bad s → step s i = some (s', o) → Bad s') (hs : Inv s)
    (hg : ¬ Guarded step cond s is) (hrun : run step s is = some (s', os)) : Bad s' := by
  induction is generalizing s os with
  | nil => exact absurd trivial hg
  | cons i is ih =>
    obtain ⟨s₁, o, os', h₁, hrest, -⟩ := run_cons_eq_some.mp hrun
    rw [guarded_cons_iff h₁, not_and] at hg
    by_cases hcond : cond s i
    · -- this step is guarded, so a later one is not
      exact ih (hstep s i s₁ o hs hcond h₁) (hg hcond) hrest
    · -- the run is spoilt here, and the rest keeps it so whatever its steps are
      exact run_invariant (fun t j t' o' ht _ hj => hbad t j t' o' ht hj)
        (hspoil s i s₁ o hs hcond h₁) (guarded_true step s₁ is) hrest

/-- A property that survives exactly the steps that meet `cond` survives exactly the runs whose
steps all meet `cond`; the invariant survives all runs. -/
theorem run_iff_guarded
    (hstep : ∀ s i s' o, Inv s → step s i = some (s', o) → Inv s' ∧ (P s' ↔ P s ∧ cond s i))
    (hs : Inv s) (hrun : run step s is = some (s', os)) :
    Inv s' ∧ (P s' ↔ P s ∧ Guarded step cond s is) := by
  induction is generalizing s os with
  | nil =>
    cases hrun
    exact ⟨hs, (and_iff_left (guarded_nil step cond _)).symm⟩
  | cons i is ih =>
    obtain ⟨s₁, o, os', h₁, hrest, -⟩ := run_cons_eq_some.mp hrun
    obtain ⟨hs₁, hP₁⟩ := hstep s i s₁ o hs h₁
    rw [guarded_cons_iff h₁, ← and_assoc, ← hP₁]
    exact ih hs₁ hrest

/-! ## Outputs -/

/-- If every step adds to a weight what its output counts, a run adds what all its outputs
count. -/
theorem run_countP {weight : σ → Nat} {counts : ο → Bool}
    (hstep : ∀ s i s' o, Inv s → step s i = some (s', o) →
      Inv s' ∧ weight s' = weight s + (counts o).toNat) (hs : Inv s)
    (hrun : run step s is = some (s', os)) :
    weight s' = weight s + os.countP counts := by
  induction is generalizing s os with
  | nil =>
    cases hrun
    rfl
  | cons i is ih =>
    obtain ⟨s₁, o, os', h₁, hrest, rfl⟩ := run_cons_eq_some.mp hrun
    obtain ⟨hs₁, hweight⟩ := hstep s i s₁ o hs h₁
    rw [ih hs₁ hrest, hweight, List.countP_cons]
    cases counts o with
    | false => rfl
    | true => exact Nat.add_right_comm _ _ _

/-- What is true of an output in the state after it, and stays true, is true of all outputs at
the end of a guarded run, with the invariant that each step keeps. -/
theorem run_outputs {Q : σ → ο → Prop}
    (hstep : ∀ s i s' o, Inv s → cond s i → step s i = some (s', o) →
      Inv s' ∧ Q s' o ∧ ∀ o', Q s o' → Q s' o')
    (hs : Inv s) (hg : Guarded step cond s is) (hrun : run step s is = some (s', os)) :
    Inv s' ∧ (∀ o, Q s o → Q s' o) ∧ ∀ o ∈ os, Q s' o := by
  induction is generalizing s os with
  | nil =>
    cases hrun
    exact ⟨hs, fun _ hQ => hQ, nofun⟩
  | cons i is ih =>
    obtain ⟨s₁, o, os', h₁, hrest, rfl⟩ := run_cons_eq_some.mp hrun
    obtain ⟨hs₁, hQ, hstays⟩ := hstep s i s₁ o hs hg.1 h₁
    obtain ⟨hs', hkeep, hall⟩ := ih hs₁ (hg.2 s₁ o h₁) hrest
    exact ⟨hs', fun o' hQ' => hkeep o' (hstays o' hQ'), List.forall_mem_cons.mpr ⟨hkeep o hQ, hall⟩⟩

/-- If the output of a step is as wanted exactly when the step meets `cond`, the outputs of a run
are exactly when all its steps do. -/
theorem run_outputs_iff_guarded (hstep : ∀ s i s' o, step s i = some (s', o) → (Q o ↔ cond s i))
    (hrun : run step s is = some (s', os)) : (∀ o ∈ os, Q o) ↔ Guarded step cond s is := by
  induction is generalizing s os with
  | nil =>
    cases hrun
    exact iff_of_true nofun trivial
  | cons i is ih =>
    obtain ⟨s₁, o, os', h₁, hrest, rfl⟩ := run_cons_eq_some.mp hrun
    rw [List.forall_mem_cons, guarded_cons_iff h₁, hstep s i s₁ o h₁, ih hrest]

/-! ## Refinement -/

/-- Forward simulation: if every guarded step of the machine is matched by a
step of the abstract one with the same output, so is every guarded run. -/
theorem run_refines {spec : τ → ι → τ × ο}
    (hstep : ∀ s t i, R s t → cond s i → ∃ s', step s i = some (s', (spec t i).2) ∧
      R s' (spec t i).1)
    {t : τ} (hR : R s t) (hg : Guarded step cond s is) :
    ∃ s' t' os, run step s is = some (s', os) ∧
      run (fun t i => some (spec t i)) t is = some (t', os) ∧ R s' t' := by
  induction is generalizing s t with
  | nil => exact ⟨s, t, [], rfl, rfl, hR⟩
  | cons i is ih =>
    obtain ⟨s₁, h₁, hR₁⟩ := hstep s t i hR hg.1
    obtain ⟨s', t', os, hrun, hspec, hR'⟩ := ih hR₁ (hg.2 _ _ h₁)
    exact ⟨s', t', (spec t i).2 :: os, run_cons_eq_some.mpr ⟨_, _, _, h₁, hrun, rfl⟩,
      run_cons_eq_some.mpr ⟨_, _, _, rfl, hspec, rfl⟩, hR'⟩

/-- A run of an abstract machine that is given by a relation: in the state `t` the input `i` may be
answered by `o`, and lead to `t'`, where `spec t i o t'` holds. -/
inductive Traces (spec : τ → ι → ο → τ → Prop) : τ → List ι → List ο → τ → Prop
  | nil (t : τ) : Traces spec t [] [] t
  | cons {t t₁ t' : τ} {i : ι} {is : List ι} {o : ο} {os : List ο} (first : spec t i o t₁)
      (rest : Traces spec t₁ is os t') : Traces spec t (i :: is) (o :: os) t'

/-- If every guarded step of the machine is one the abstract machine may make, every guarded run
is a run of the abstract machine. -/
theorem run_simulates {spec : τ → ι → ο → τ → Prop} (hstep : ∀ s t i, R s t → cond s i →
      ∃ s' o t', step s i = some (s', o) ∧ spec t i o t' ∧ R s' t') {t : τ}
    (hR : R s t) (hg : Guarded step cond s is) :
    ∃ s' os t', run step s is = some (s', os) ∧ Traces spec t is os t' ∧ R s' t' := by
  induction is generalizing s t with
  | nil => exact ⟨s, [], t, rfl, Traces.nil t, hR⟩
  | cons i is ih =>
    obtain ⟨s₁, o, t₁, h₁, hspec, hR₁⟩ := hstep s t i hR hg.1
    obtain ⟨s', os, t', hrun, htraces, hR'⟩ := ih hR₁ (hg.2 _ _ h₁)
    exact ⟨s', o :: os, t', run_cons_eq_some.mpr ⟨_, _, _, h₁, hrun, rfl⟩,
      Traces.cons hspec htraces, hR'⟩

end ZilkerSdk.Lib
