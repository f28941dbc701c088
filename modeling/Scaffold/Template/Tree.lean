import Scaffold.Template.Value

/-!
# The tree of a template

A template is a list of nodes: text, the output of an expression, and tags with the
nodes between them.
-/

namespace Scaffold.Template

/-- An operation on two values. -/
inductive Operator where
  | add
  | sub
  | mul
  | div
  | floorDiv
  | rem
  | pow
  | concat
  | eq
  | ne
  | lt
  | le
  | gt
  | ge
  | isIn
deriving DecidableEq, Inhabited

/-- An expression. -/
inductive Expr where
  | constant (value : Value)
  | var (name : String)
  | list (items : List Expr)
  | map (keys values : List Expr)
  | part (of key : Expr)
  | call (name : String) (args : List Expr)
  | method (of : Expr) (name : String) (args : List Expr)
  | apply (function : Expr) (args : List Expr)
  | filter (of : Expr) (name : String) (args : List Expr)
  | test (of : Expr) (name : String) (args : List Expr)
  | neg (of : Expr)
  | not (of : Expr)
  | and (left right : Expr)
  | or (left right : Expr)
  | binary (op : Operator) (left right : Expr)
  | choice (test thenCase elseCase : Expr)
deriving Inhabited

/-- What a value is bound to. -/
inductive Target where
  | name (name : String)
  | list (targets : List Target)
deriving Inhabited

/-- A node. -/
inductive Node where
  | text (text : String)
  | output (expr : Expr)
  | cond (test : Expr) (thenNodes elseNodes : List Node)
  | loop (target : Target) (items : Expr) (keep : Expr) (body elseNodes : List Node)
  | set (target : Target) (value : Expr)
  | capture (target : Target) (body : List Node)
  | scope (targets : List Target) (values : List Expr) (body : List Node)
deriving Inhabited

end Scaffold.Template
