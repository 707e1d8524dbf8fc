import EventFold.Expr.Basic
import EventFold.Expr.Names
import EventFold.Text.Natural

/-!
# Reading expressions from forms

`Form.toExpr` reads a form as an expression or says why it is none. A text that begins with the name
of a table and a point is a reference into that table, any other value is a constant. A list has a
head: `func.` and a name for a call, `if`, or the keyword of an operator. Lists are judged before
their elements and elements from left to right, so the first offence on that way is the one reported.
-/

namespace EventFold

/-- Why a form is no expression, or no aggregator. -/
inductive FormError where
  | arity (head : String) (required found : Nat)
  /-- An argument reference whose index is no machine-sized natural number. -/
  | argumentIndex (reference : String)
  /-- A function reference that is not the head of a list. -/
  | functionOutsideCall (reference : String)
  | unexpectedHead (head : Form)
  | unknownName (kind : NameKind) (name : String)
  | emptyForm
  | unknownAggregatorKind (tag : String)
  | aggregatorNotList (form : Form)
  | aggregatorKindNotText (head : Form)
deriving DecidableEq

def FormError.message : FormError → String
  | arity head required found =>
    "`" ++ head ++ "` requires " ++ toString required ++ " arguments, but found " ++ toString found
  | argumentIndex s =>
    "invalid expression form: argument reference " ++ Text.quote s ++
      " needs a non-negative integer index"
  | functionOutsideCall s =>
    "invalid expression form: function reference " ++ Text.quote s ++ " outside call position"
  | unexpectedHead head =>
    "invalid expression form: unexpected form in operator position: " ++ head.display
  | unknownName kind name => "unknown " ++ kind.word ++ " name: " ++ Text.quote name
  | emptyForm => "empty expression form"
  | unknownAggregatorKind tag => "unknown aggregator kind: " ++ Text.quote tag
  | aggregatorNotList form =>
    "invalid aggregator form: expected [kind, expr...], found " ++ form.display
  | aggregatorKindNotText head =>
    "invalid aggregator form: aggregator kind must be a string, found " ++ head.display

namespace Form

def maxIndex : Nat := Nat.pow 2 64 - 1

def index? (s : String) : Option Nat :=
  (Text.natural? s.toList).filter (· ≤ maxIndex)

def checkedName (kind : NameKind) (known : String → Bool) (name : String) : Except FormError String :=
  if name.isEmpty || !known name then .error (.unknownName kind name) else .ok name

inductive Reference where
  | property (name : String)
  | var (name : String)
  | aggregator (name : String)
  | argument (index : String)
  | function (name : String)
deriving DecidableEq

def reference? (s : String) : Option Reference :=
  let behind (beginning : String) (make : String → Reference) : Option Reference :=
    (Text.dropBeginning? beginning s).map make
  behind "event." .property
    <|> behind "var." .var <|> behind "variables." .var
    <|> behind "agg." .aggregator <|> behind "aggregators." .aggregator
    <|> behind "arg." .argument
    <|> behind "func." .function

def textExpr (names : Vocabulary) (s : String) : Except FormError Expr :=
  match reference? s with
  | some (.property name) => (checkedName .property names.property name).map .property
  | some (.var name) => (checkedName .var names.var name).map .var
  | some (.aggregator name) => (checkedName .aggregator names.aggregator name).map .aggregator
  | some (.argument index) =>
    match index? index with
    | some n => .ok (.argument n)
    | none => .error (.argumentIndex s)
  | some (.function _) => .error (.functionOutsideCall s)
  | none => .ok (.const (.text s))

inductive Head where
  | call (function : String)
  | choose
  | apply (op : Operator)
deriving DecidableEq

/-- Judges the head of a list that has `count` elements behind it. -/
def readHead (head : Form) (count : Nat) : Except FormError Head :=
  match head with
  | atom (.text s) =>
    match Text.dropBeginning? "func." s with
    | some name => if name.isEmpty then .error (.unknownName .function "") else .ok (.call name)
    | none =>
      if s == "if" then if count == 3 then .ok .choose else .error (.arity "if" 3 count)
      else
        match Operator.ofKeyword? s with
        | some op =>
          if count < Operator.minOperands then
            .error (.arity op.keyword Operator.minOperands count)
          else .ok (.apply op)
        | none => .error (.unexpectedHead head)
  | head => .error (.unexpectedHead head)

mutual

def toExpr (names : Vocabulary) : Form → Except FormError Expr
  | atom (.text s) => textExpr names s
  | atom v => .ok (.const v)
  | list [] => .error .emptyForm
  | list (head :: rest) => do
    match ← readHead head rest.length with
    | .call f => return .call f (← toExprs names rest)
    | .apply op => return .apply op (← toExprs names rest)
    | .choose =>
      match rest with
      | [c, y, n] => return .choose (← toExpr names c) (← toExpr names y) (← toExpr names n)
      | _ => throw (.arity "if" 3 rest.length)

def toExprs (names : Vocabulary) : List Form → Except FormError (List Expr)
  | [] => .ok []
  | f :: fs => do return (← toExpr names f) :: (← toExprs names fs)

end

end Form

end EventFold
