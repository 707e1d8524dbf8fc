import EventFold.Value

/-!
# Forms

A form is the literal tree that an expression is written as: a value, or a list of forms.
-/

namespace EventFold

inductive Form where
  | atom (value : Value)
  | list (items : List Form)
deriving Inhabited

namespace Form

mutual

def agrees : Form → Form → Bool
  | atom a, atom b => a.agrees b
  | list as, list bs => agreesAll as bs
  | _, _ => false

def agreesAll : List Form → List Form → Bool
  | [], [] => true
  | a :: as, b :: bs => agrees a b && agreesAll as bs
  | _, _ => false

end

mutual

def display : Form → String
  | atom (.text s) => Text.quote s
  | atom v => v.display
  | list items => "[" ++ displayItems items ++ "]"

def displayItems : List Form → String
  | [] => ""
  | [f] => display f
  | f :: fs => display f ++ ", " ++ displayItems fs

end

mutual

/-- Equality of forms is decidable, by recursion on the two trees. -/
def decEq : (a b : Form) → Decidable (a = b)
  | atom a, atom b =>
    if h : a = b then isTrue (by rw [h]) else isFalse (by simpa using h)
  | list as, list bs =>
    match decEqAll as bs with
    | isTrue h => isTrue (by rw [h])
    | isFalse h => isFalse (by simpa using h)
  | atom _, list _ => isFalse (by simp)
  | list _, atom _ => isFalse (by simp)

def decEqAll : (as bs : List Form) → Decidable (as = bs)
  | [], [] => isTrue rfl
  | [], _ :: _ => isFalse (by simp)
  | _ :: _, [] => isFalse (by simp)
  | a :: as, b :: bs =>
    match decEq a b, decEqAll as bs with
    | isTrue h, isTrue hs => isTrue (by rw [h, hs])
    | isFalse h, _ => isFalse (by simp [h])
    | _, isFalse hs => isFalse (by simp [hs])

end

instance : DecidableEq Form := decEq

end Form

end EventFold
