/-!
# Algebraic expressions

Expressions over the rational numbers with named variables.  Nothing is simplified when a tree is
built: `2 * 3` and `6` are different trees.
-/

namespace EquationPractice

/-- An algebraic expression. -/
inductive Expr where
  | number (value : Rat)
  | var (name : String)
  | add (left right : Expr)
  | sub (left right : Expr)
  | mul (left right : Expr)
  | div (left right : Expr)
  | pow (base exponent : Expr)
  | neg (inner : Expr)
  deriving DecidableEq, Repr

namespace Expr

/-- Whether a variable occurs in the expression. -/
def mentions (name : String) : Expr → Bool
  | number _ => false
  | var other => other == name
  | add l r | sub l r | mul l r | div l r | pow l r => l.mentions name || r.mentions name
  | neg e => e.mentions name

/-- Inserts a name into a strictly increasing list of names, unless it is there already. -/
def insertName (name : String) : List String → List String
  | [] => [name]
  | first :: rest =>
      if name < first then name :: first :: rest
      else if name = first then first :: rest
      else first :: insertName name rest

/-- Adds the variables of an expression to a strictly increasing list of names. -/
def collect : Expr → List String → List String
  | number _, names => names
  | var name, names => insertName name names
  | add l r, names | sub l r, names | mul l r, names | div l r, names | pow l r, names =>
      r.collect (l.collect names)
  | neg e, names => e.collect names

/-- The variables of the expression, each once, in increasing order. -/
def variableNames (e : Expr) : List String :=
  e.collect []

/-! ## Which names are listed -/

@[simp] theorem mem_insertName {name other : String} {names : List String} :
    other ∈ insertName name names ↔ other = name ∨ other ∈ names := by
  induction names with
  | nil => simp [insertName]
  | cons first rest ih =>
      simp only [insertName]
      split
      · simp
      · split
        · next heq => simp [heq]
        · simp only [List.mem_cons, ih]
          exact or_left_comm

theorem mem_collect {name : String} {e : Expr} {names : List String} :
    name ∈ e.collect names ↔ e.mentions name = true ∨ name ∈ names := by
  induction e generalizing names with
  | number value => simp [collect, mentions]
  | var other => simp [collect, mentions, @eq_comm _ name other]
  | neg e ih => simp [collect, mentions, ih]
  | add l r ihl ihr | sub l r ihl ihr | mul l r ihl ihr | div l r ihl ihr | pow l r ihl ihr =>
      simp only [collect, mentions, ihl, ihr, Bool.or_eq_true]
      rw [← or_assoc, or_comm (a := r.mentions name = true)]

/-- Exactly the variables that occur are listed. -/
@[simp] theorem mem_variableNames {name : String} {e : Expr} :
    name ∈ e.variableNames ↔ e.mentions name = true := by
  simp [variableNames, mem_collect]

end Expr

end EquationPractice
