import Mathlib.Data.List.Basic

/-!
# Expressions with `&&` and `||`

Expressions as they are written in C or JavaScript: operands with operators between them, where `&&`
binds tighter than `||` and parentheses group.  An expression is evaluated from left to right as a
list of tokens.  Since the operands have no side effects, it does not matter that the languages skip
operands that do not count.

A chain is what stands between two parentheses.  Its operands fall into alternatives, and it is true
if all operands of one alternative are.
-/

namespace ZilkerSdk.Lib

open List

inductive LogicalOp where
  | and
  | or
deriving DecidableEq

inductive ExprToken (φ : Type*) where
  | openParen
  | closeParen
  | op (o : LogicalOp)
  | call (f : φ)
deriving DecidableEq

/-! ## Evaluation -/

/-- What is known of an expression that was read in part. -/
structure Partial where
  /-- Is one of the alternatives that are complete true? -/
  disjunction : Bool
  /-- Are the operands of the present alternative true? -/
  conjunction : Bool
deriving DecidableEq

namespace Partial

def start : Partial := ⟨false, true⟩

def value (p : Partial) : Bool := p.disjunction || p.conjunction

def operand (p : Partial) (v : Bool) : Partial := { p with conjunction := p.conjunction && v }

/-- An operator begins a new alternative, or it does not. -/
def join (p : Partial) : LogicalOp → Partial
  | .and => p
  | .or => ⟨p.value, true⟩

end Partial

section

variable {φ : Type*} (env : φ → Bool)

/-- Read the rest of an expression.  Each open parenthesis has what was read before it on the stack.
The flag tells whether an operand comes next, or an operator. -/
def evaluateFrom : List (ExprToken φ) → Partial → List Partial → Bool → Option Bool
  | [], p, [], false => some p.value
  | .call f :: tokens, p, stack, true => evaluateFrom tokens (p.operand (env f)) stack false
  | .openParen :: tokens, p, stack, true => evaluateFrom tokens .start (p :: stack) true
  | .closeParen :: tokens, p, outer :: stack, false =>
    evaluateFrom tokens (outer.operand p.value) stack false
  | .op o :: tokens, p, stack, false => evaluateFrom tokens (p.join o) stack true
  | _, _, _, _ => none

/-- The value of an expression, if it is one. -/
def evaluate (tokens : List (ExprToken φ)) : Option Bool := evaluateFrom env tokens .start [] true

/-- The tokens are read as one operand with the given value. -/
def IsOperand (tokens : List (ExprToken φ)) (v : Bool) : Prop :=
  ∀ rest p stack,
    evaluateFrom env (tokens ++ rest) p stack true = evaluateFrom env rest (p.operand v) stack false

variable {env}

theorem IsOperand.call (f : φ) : IsOperand env [.call f] (env f) := fun _ _ _ => rfl

/-! ## Chains -/

/-- Operands, each with the operator behind it. -/
def chainTokens {α : Type*} (tokens : α → List (ExprToken φ)) (op : α → LogicalOp)
    (items : List α) : List (ExprToken φ) :=
  items.flatMap fun item => tokens item ++ [.op (op item)]

variable {α : Type*} (value : α → Bool) (op : α → LogicalOp)

/-- What is known after some operands and the operators behind them. -/
def follow (items : List α) (p : Partial) : Partial :=
  items.foldl (fun p item => (p.operand (value item)).join (op item)) p

@[simp] theorem follow_nil (p : Partial) : follow value op [] p = p := rfl

@[simp] theorem follow_cons (item : α) (items : List α) (p : Partial) :
    follow value op (item :: items) p =
      follow value op items ((p.operand (value item)).join (op item)) := rfl

theorem follow_append (first second : List α) (p : Partial) :
    follow value op (first ++ second) p = follow value op second (follow value op first p) :=
  foldl_append

variable {value op} {tokens : α → List (ExprToken φ)} {items xs : List α}
  {last : List (ExprToken φ)} {p q : α → Bool}

section

variable (h : ∀ item ∈ items, IsOperand env (tokens item) (value item))
include h

theorem evaluateFrom_chain (rest : List (ExprToken φ)) (p : Partial) (stack : List Partial) :
    evaluateFrom env (chainTokens tokens op items ++ rest) p stack true =
      evaluateFrom env rest (follow value op items p) stack true := by
  induction items generalizing p with
  | nil => rfl
  | cons item items ih =>
    have hitem := h item mem_cons_self
    have hrest := ih fun other hother => h other (mem_cons_of_mem item hother)
    rw [chainTokens, flatMap_cons, append_assoc, append_assoc, hitem]
    exact hrest _

/-- A chain in parentheses. -/
theorem IsOperand.group {v : Bool} (hlast : IsOperand env last v) :
    IsOperand env (.openParen :: (chainTokens tokens op items ++ last ++ [.closeParen]))
      ((follow value op items .start).operand v).value := by
  intro rest p stack
  rw [cons_append, evaluateFrom, append_assoc, append_assoc, evaluateFrom_chain h, hlast]
  rfl

/-- A chain without parentheses around it. -/
theorem evaluate_chain {v : Bool} (hlast : IsOperand env last v) :
    evaluate env (chainTokens tokens op items ++ last) =
      some ((follow value op items .start).operand v).value := by
  have hend := hlast [] (follow value op items .start) []
  rw [append_nil] at hend
  rw [evaluate, evaluateFrom_chain h, hend]
  rfl

end

/-! ## The value of a chain -/

theorem all_congr_of_mem (h : ∀ x ∈ xs, p x = q x) : xs.all p = xs.all q := by
  rw [Bool.eq_iff_iff, all_eq_true, all_eq_true]
  exact forall₂_congr fun x hx => by rw [h x hx]

theorem any_congr_of_mem (h : ∀ x ∈ xs, p x = q x) : xs.any p = xs.any q := by
  rw [Bool.eq_iff_iff, any_eq_true, any_eq_true]
  exact exists_congr fun x => and_congr_right fun hx => by rw [h x hx]

/-- Only values count. -/
theorem follow_congr {other : α → Bool} (h : ∀ item ∈ items, value item = other item)
    (p : Partial) : follow value op items p = follow other op items p :=
  foldl_ext _ _ p fun p item hitem => by rw [h item hitem]

/-- With `&&` behind each operand there is one alternative. -/
theorem follow_and (h : ∀ item ∈ items, op item = .and) (p : Partial) :
    follow value op items p = p.operand (items.all value) := by
  induction items generalizing p with
  | nil => simp [Partial.operand]
  | cons item items ih =>
    rw [follow_cons, h item mem_cons_self, ih (fun x hx => h x (mem_cons_of_mem item hx)) _]
    simp [Partial.operand, Partial.join, Bool.and_assoc]

/-- With `||` behind each operand, each one is an alternative. -/
theorem follow_or (h : ∀ item ∈ items, op item = .or) (b : Bool) :
    follow value op items ⟨b, true⟩ = ⟨b || items.any value, true⟩ := by
  induction items generalizing b with
  | nil => simp
  | cons item items ih =>
    rw [follow_cons, h item mem_cons_self, any_cons, ← Bool.or_assoc]
    exact ih (fun x hx => h x (mem_cons_of_mem item hx)) _

/-- No alternative is complete and true if the operands in front of an `||` are false. -/
theorem disjunction_follow (h : ∀ item ∈ items, op item = .or → value item = false) {p : Partial}
    (hp : p.disjunction = false) : (follow value op items p).disjunction = false := by
  refine foldlRecOn (motive := fun p : Partial => p.disjunction = false) items _ hp ?_
  intro p hp item hitem
  cases hop : op item with
  | and => exact hp
  | or => simp [Partial.join, Partial.value, Partial.operand, hp, h item hitem hop]

/-- What is true stays true while the operands are true. -/
theorem value_follow (h : ∀ item ∈ items, value item = true) {p : Partial} (hp : p.value = true) :
    (follow value op items p).value = true := by
  refine foldlRecOn (motive := fun p : Partial => p.value = true) items _ hp ?_
  intro p hp item hitem
  have hsame : p.operand (value item) = p := by simp [Partial.operand, h item hitem]
  rw [hsame]
  cases op item with
  | and => exact hp
  | or => simp [Partial.join, Partial.value]

/-- A chain is true if all its operands behind some `||` are. -/
theorem value_follow_or {first second : List α} {item : α} (hop : op item = .or)
    (h : ∀ x ∈ second, value x = true) (p : Partial) :
    ((follow value op (first ++ item :: second) p).operand true).value = true := by
  have hjoin : (((follow value op first p).operand (value item)).join (op item)).value = true := by
    rw [hop]
    simp [Partial.join, Partial.value]
  rw [follow_append, follow_cons]
  simpa [Partial.operand] using value_follow h hjoin

end

end ZilkerSdk.Lib
