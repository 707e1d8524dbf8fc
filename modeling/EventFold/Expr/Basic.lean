import EventFold.Form

/-!
# Expressions

An expression is what a form means: a constant, a reference into one of the tables it is evaluated
against, a call of a named function, a choice, or an operator folded over its operands.
-/

namespace EventFold

/-- The operators. All take at least two operands when written as a form. -/
inductive Operator where
  | equal | notEqual | and | or
  | add | subtract | multiply | divide | remainder
  | less | greater | atMost | atLeast
deriving DecidableEq, Repr

namespace Operator

def minOperands : Nat := 2

def all : List Operator :=
  [equal, notEqual, and, or, add, subtract, multiply, divide, remainder, less, greater, atMost, atLeast]

def keyword : Operator → String
  | equal => "="
  | notEqual => "!="
  | and => "and"
  | or => "or"
  | add => "+"
  | subtract => "-"
  | multiply => "*"
  | divide => "/"
  | remainder => "%"
  | less => "<"
  | greater => ">"
  | atMost => "<="
  | atLeast => ">="

def ofKeyword? (s : String) : Option Operator :=
  all.find? fun op => op.keyword == s

def isNumeric : Operator → Bool
  | equal | notEqual | and | or => false
  | _ => true

theorem ofKeyword?_keyword (op : Operator) : ofKeyword? op.keyword = some op := by
  cases op <;> decide +kernel

end Operator

inductive Expr where
  | const (value : Value)
  | property (name : String)
  | var (name : String)
  | aggregator (name : String)
  /-- An argument of the innermost call, counted from 0. -/
  | argument (index : Nat)
  | call (function : String) (arguments : List Expr)
  | choose (condition yes no : Expr)
  | apply (op : Operator) (operands : List Expr)
deriving Inhabited

end EventFold
