import Mathlib.Data.List.Nodup
import ZilkerSdk.Lib.LogicalExpr

/-!
# Constraints of rules and the script they become

Model of the constraints of `libs/libicrule/src/icrule_constraint.c` and of
`libs/cslt/src/sheens/sheens_transcoder_constraints.c`, which writes a script for them.

A constraint is a tree.  A node has time constraints and child constraints and says whether all of
them must be met, or one.  The script has one function for each node, which checks the time
constraints of this node, and an expression that calls these functions.  The expression is not
written from the tree: it is unrolled from a list of operators, function names and returns.

The text of a script is modelled by its parts: the functions with their statements, and the tokens
of the expression.  A node is known by its address, from which the name of its function is made.
Addresses are the numbers of allocations.  The lists of a node are plain lists: none has a positive
multiple of 65536 items, which the source's 16-bit counter would take for none.
-/

namespace ZilkerSdk.Rule

open Lib

/-! ## Constraints -/

/-- `icrule_constraint_t` -/
inductive Constraint (τ : Type*) where
  | node (address : Nat) (logic : LogicalOp) (timeConstraints : List τ)
      (childConstraints : List (Constraint τ))

namespace Constraint

variable {τ : Type*}

def logic : Constraint τ → LogicalOp
  | node _ logic _ _ => logic

@[induction_eliminator]
theorem induct {motive : Constraint τ → Prop}
    (node : ∀ address logic times children, (∀ child ∈ children, motive child) →
      motive (.node address logic times children)) (c : Constraint τ) : motive c := by
  apply @Constraint.rec τ motive (fun children => ∀ child ∈ children, motive child)
  · exact node
  · intro child hchild
    cases hchild
  · intro c children hc hchildren
    exact List.forall_mem_cons.mpr ⟨hc, hchildren⟩

mutual

/-- All the time constraints of a tree. -/
def times : Constraint τ → List τ
  | node _ _ times children => times ++ timesAll children

def timesAll : List (Constraint τ) → List τ
  | [] => []
  | c :: cs => c.times ++ timesAll cs

end

mutual

/-- The addresses of the nodes of a tree. -/
def addresses : Constraint τ → List Nat
  | node address _ _ children => address :: addressesAll children

def addressesAll : List (Constraint τ) → List Nat
  | [] => []
  | c :: cs => c.addresses ++ addressesAll cs

end

mutual

/-- Each node has a time constraint or a child constraint. -/
def NonEmpty : Constraint τ → Prop
  | node _ _ times children => (times ≠ [] ∨ children ≠ []) ∧ NonEmptyAll children

def NonEmptyAll : List (Constraint τ) → Prop
  | [] => True
  | c :: cs => c.NonEmpty ∧ NonEmptyAll cs

end

theorem timesAll_eq_flatMap (cs : List (Constraint τ)) : timesAll cs = cs.flatMap times := by
  induction cs with
  | nil => rfl
  | cons c cs ih => rw [timesAll, List.flatMap_cons, ih]

theorem nonEmptyAll_iff (cs : List (Constraint τ)) : NonEmptyAll cs ↔ ∀ c ∈ cs, c.NonEmpty := by
  induction cs with
  | nil => simp [NonEmptyAll]
  | cons c cs ih => rw [NonEmptyAll, ih, List.forall_mem_cons]

end Constraint

/-- The constraints of a rule: no node is without constraints, and no two of them are the same. -/
structure RuleConstraints (τ : Type*) where
  constraints : List (Constraint τ)
  nonEmpty : ∀ c ∈ constraints, c.NonEmpty
  addresses : (constraints.flatMap Constraint.addresses).Nodup
  times : (constraints.flatMap Constraint.times).Nodup

/-! ## Writing the script -/

/-- An entry of the list that the expression is unrolled from. -/
inductive RpnEntry where
  | logic (o : LogicalOp)
  | func (address : Nat)
  | ret
deriving DecidableEq

/-- A statement of the function of a node. -/
inductive Statement (τ : Type*) where
  /-- `allowed = (…)` -/
  | assign (time : τ)
  /-- `allowed = allowed && (…)` or `allowed = allowed || (…)` -/
  | update (o : LogicalOp) (time : τ)
  /-- `allowed = true` -/
  | assignTrue

section

variable {τ : Type*}

/-- The statements of the function of a node. -/
def functionBody (logic : LogicalOp) : List τ → List (Statement τ)
  | [] => [.assignTrue]
  | time :: times => .assign time :: times.map (.update logic)

mutual

/-- The body of the loop of `internal_sheens_constraints2javascript`: what is appended to the list
for a constraint.  The children come first. -/
def rpn : Constraint τ → List RpnEntry
  | .node address logic _ children => .logic logic :: (rpnAll children ++ [.func address, .ret])

def rpnAll : List (Constraint τ) → List RpnEntry
  | [] => []
  | c :: cs => rpn c ++ rpnAll cs

end

mutual

/-- The functions that are written for a constraint. -/
def functions : Constraint τ → List (Nat × List (Statement τ))
  | .node address logic times children =>
    functionsAll children ++ [(address, functionBody logic times)]

def functionsAll : List (Constraint τ) → List (Nat × List (Statement τ))
  | [] => []
  | c :: cs => functions c ++ functionsAll cs

end

/-- A call of `build_constraint_allowed_js`: the logic it was called with, and whether it has
written a function. -/
structure Level where
  logic : Option LogicalOp
  written : Bool

/-- `logic_str` of a call. -/
def Level.logicStr (level : Level) : List (ExprToken Nat) :=
  match level.logic with
  | some o => [.op o]
  | none => []

/-- `build_constraint_allowed_js`, with the calls that are active. -/
def buildConstraintAllowedJs : List Level → List RpnEntry → List (ExprToken Nat)
  | _, [] => []
  | [], _ => []
  | level :: calls, .logic o :: entries =>
    .openParen :: buildConstraintAllowedJs (⟨some o, false⟩ :: level :: calls) entries
  | level :: calls, .ret :: entries =>
    -- the operator of this call stands behind the parenthesis, unless another one closes
    .closeParen ::
      ((if entries = [] ∨ entries.head? = some .ret then [] else level.logicStr) ++
        buildConstraintAllowedJs calls entries)
  | level :: calls, .func address :: entries =>
    (if level.written then level.logicStr else []) ++
      .call address :: buildConstraintAllowedJs ({ level with written := true } :: calls) entries

/-- The script: functions, and the expression whose value is `final_allowed`. -/
structure Script (τ : Type*) where
  functions : List (Nat × List (Statement τ))
  expression : List (ExprToken Nat)

def sheensConstraints2Javascript (constraints : List (Constraint τ)) : Script τ where
  functions := functionsAll constraints
  expression := buildConstraintAllowedJs [⟨none, false⟩] (rpnAll constraints)

/-- `transcode_constraints`: without constraints there is no script, and the actions follow
unconditionally. -/
def transcodeConstraints (constraints : List (Constraint τ)) : Option (Script τ) :=
  if constraints.isEmpty then none else some (sheensConstraints2Javascript constraints)

/-! ## Running the script -/

variable (truth : τ → Bool)

def Statement.run (allowed : Bool) : Statement τ → Bool
  | .assign time => truth time
  | .update .and time => allowed && truth time
  | .update .or time => allowed || truth time
  | .assignTrue => true

/-- What a function returns.  Its variable is not defined at first. -/
def runBody (body : List (Statement τ)) : Bool := body.foldl (Statement.run truth) false

/-- What a call returns.  The last declaration of a name counts. -/
def Script.call (script : Script τ) (address : Nat) : Bool :=
  ((script.functions.reverse.find? fun f => f.1 = address).map fun f =>
    runBody truth f.2).getD false

/-- Are the actions of a rule allowed?  This is `none` if the expression is not well formed. -/
def allowed (constraints : List (Constraint τ)) : Option Bool :=
  match transcodeConstraints constraints with
  | none => some true
  | some script => evaluate (script.call truth) script.expression

/-! ## What constraints mean -/

mutual

/-- An `and` node is met if all its constraints are, an `or` node if one of them is. -/
def meaning : Constraint τ → Bool
  | .node _ .and times children => times.all truth && meaningAll children
  | .node _ .or times children => times.any truth || meaningAny children

def meaningAll : List (Constraint τ) → Bool
  | [] => true
  | c :: cs => meaning c && meaningAll cs

def meaningAny : List (Constraint τ) → Bool
  | [] => false
  | c :: cs => meaning c || meaningAny cs

end

theorem meaningAll_eq_all (cs : List (Constraint τ)) :
    meaningAll truth cs = cs.all (meaning truth) := by
  induction cs with
  | nil => rfl
  | cons c cs ih => rw [meaningAll, List.all_cons, ih]

theorem meaningAny_eq_any (cs : List (Constraint τ)) :
    meaningAny truth cs = cs.any (meaning truth) := by
  induction cs with
  | nil => rfl
  | cons c cs ih => rw [meaningAny, List.any_cons, ih]

end

end ZilkerSdk.Rule
