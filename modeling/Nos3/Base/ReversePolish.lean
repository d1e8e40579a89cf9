import Mathlib.Logic.Basic

/-!
# Reverse polish notation

Expressions over leaves, unary and binary operators, the symbols they are
written with, and the stack a list of symbols works on. A stack of any values
goes the way of the stack of the trees those values come from, so what holds of
the notation is said once, about trees.
-/
namespace Nos3.Base.ReversePolish

universe u v w x
variable {L : Type u} {U : Type v} {B : Type w} {α : Type x}

inductive Symbol (L : Type u) (U : Type v) (B : Type w)
  | leaf (l : L)
  | unary (op : U)
  | binary (op : B)

inductive Expr (L : Type u) (U : Type v) (B : Type w)
  | leaf (l : L)
  | unary (op : U) (e : Expr L U B)
  | binary (op : B) (left right : Expr L U B)

/-- What the symbols mean in a domain of values. -/
structure Meaning (L : Type u) (U : Type v) (B : Type w) (α : Type x) where
  leaf : L → α
  unary : U → α → α
  binary : B → α → α → α

def Expr.eval (M : Meaning L U B α) : Expr L U B → α
  | .leaf l => M.leaf l
  | .unary op e => M.unary op (e.eval M)
  | .binary op left right => M.binary op (left.eval M) (right.eval M)

def Expr.spell : Expr L U B → List (Symbol L U B)
  | .leaf l => [.leaf l]
  | .unary op e => e.spell ++ [.unary op]
  | .binary op left right => left.spell ++ right.spell ++ [.binary op]

/-- One symbol on a stack with its top first; nothing where an operand is
missing. -/
def Meaning.act (M : Meaning L U B α) : Symbol L U B → List α → Option (List α)
  | .leaf l, stack => some (M.leaf l :: stack)
  | .unary op, a :: stack => some (M.unary op a :: stack)
  | .binary op, b :: a :: stack => some (M.binary op a b :: stack)
  | _, _ => none

def Meaning.run (M : Meaning L U B α) : List (Symbol L U B) → List α → Option (List α)
  | [], stack => some stack
  | symbol :: rest, stack => (M.act symbol stack).bind (M.run rest)

theorem Meaning.run_append (M : Meaning L U B α) (front back : List (Symbol L U B))
    (stack : List α) : M.run (front ++ back) stack = (M.run front stack).bind (M.run back) := by
  induction front generalizing stack with
  | nil => rfl
  | cons symbol front ih =>
    rw [List.cons_append, Meaning.run, Meaning.run]
    cases M.act symbol stack with
    | none => rfl
    | some next => exact ih next

/-- The spelling of an expression leaves its value on the stack. -/
theorem Meaning.run_spell (M : Meaning L U B α) (e : Expr L U B) (stack : List α) :
    M.run e.spell stack = some (e.eval M :: stack) := by
  induction e generalizing stack with
  | leaf l => rfl
  | unary op e ih =>
    rw [Expr.spell, run_append, ih]
    rfl
  | binary op left right ihl ihr =>
    rw [Expr.spell, run_append, run_append, ihl, Option.bind_some, ihr]
    rfl

/-- The meaning that keeps the tree. -/
def Expr.tree : Meaning L U B (Expr L U B) := ⟨.leaf, .unary, .binary⟩

/-- The symbols a stack of trees was built by, the deepest tree first. -/
def Expr.spellStack (stack : List (Expr L U B)) : List (Symbol L U B) :=
  (stack.reverse.map Expr.spell).flatten

@[simp] theorem Expr.spellStack_cons (e : Expr L U B) (stack : List (Expr L U B)) :
    Expr.spellStack (e :: stack) = Expr.spellStack stack ++ e.spell := by
  simp [Expr.spellStack]

theorem Expr.act_tree_spell {symbol : Symbol L U B} {stack next : List (Expr L U B)}
    (h : Expr.tree.act symbol stack = some next) :
    Expr.spellStack next = Expr.spellStack stack ++ [symbol] := by
  match symbol, stack with
  | .leaf l, stack =>
    cases h
    rw [Expr.spellStack_cons]
    rfl
  | .unary op, a :: stack =>
    cases h
    rw [Expr.spellStack_cons, Expr.spellStack_cons, List.append_assoc]
    rfl
  | .binary op, b :: a :: stack =>
    cases h
    have hspell : (Expr.tree.binary op a b).spell = a.spell ++ b.spell ++ [.binary op] := rfl
    rw [Expr.spellStack_cons, Expr.spellStack_cons, Expr.spellStack_cons, hspell]
    simp only [List.append_assoc]
  | .unary op, [] => cases h
  | .binary op, [] => cases h
  | .binary op, [a] => cases h

/-- How many values a symbol leaves on a stack of a given depth. -/
def Symbol.depth : Symbol L U B → Nat → Option Nat
  | .leaf _, n => some (n + 1)
  | .unary _, n + 1 => some (n + 1)
  | .binary _, n + 2 => some (n + 1)
  | _, _ => none

theorem Meaning.act_depth (M : Meaning L U B α) (symbol : Symbol L U B) (stack : List α) :
    (M.act symbol stack).map List.length = symbol.depth stack.length := by
  match symbol, stack with
  | .leaf _, _ => rfl
  | .unary _, [] => rfl
  | .unary _, _ :: _ => rfl
  | .binary _, [] => rfl
  | .binary _, [_] => rfl
  | .binary _, _ :: _ :: _ => rfl

/-- A symbol needs nothing but the depth of the stack. -/
theorem Meaning.act_of_depth (M : Meaning L U B α) {symbol : Symbol L U B} {stack : List α}
    {depth : Nat} (h : symbol.depth stack.length = some depth) :
    ∃ next, M.act symbol stack = some next ∧ next.length = depth := by
  rw [← M.act_depth] at h
  exact Option.map_eq_some_iff.mp h

end Nos3.Base.ReversePolish
