import Applicability.Boolean.Expr
import Applicability.Boolean.Token

/-!
Reading Boolean expressions. Negation binds tighter than conjunction, and conjunction tighter than
disjunction:

  disjunction := conjunction (`||` conjunction)*
  conjunction := operand (`&&` operand)*
  operand     := `!` operand | `true` | `false` | `(` disjunction `)`

Each `!` and `(` opens a level that ends with its operand. The number of levels that may still be opened
bounds the recursion.
-/

namespace Applicability.Boolean

abbrev Parsed := Except Error (Expr × List Token)

def chainFrom (op : Token) (join : Expr → Expr → Expr) (operand : List Token → Parsed) :
    Nat → Expr → List Token → Parsed
  | 0, acc, ts => .ok (acc, ts)
  | _ + 1, acc, [] => .ok (acc, [])
  | n + 1, acc, t :: ts =>
    if t = op then
      match operand ts with
      | .ok (e, rest) => chainFrom op join operand n (join acc e) rest
      | .error e => .error e
    else .ok (acc, t :: ts)

def chain (op : Token) (join : Expr → Expr → Expr) (operand : List Token → Parsed)
    (ts : List Token) : Parsed :=
  match operand ts with
  | .ok (e, rest) => chainFrom op join operand rest.length e rest
  | .error e => .error e

def disjunction (operand : List Token → Parsed) : List Token → Parsed :=
  chain .disj .disj (chain .conj .conj operand)

def operand : Nat → List Token → Parsed
  | _, [] => .error .unexpectedEnd
  | _, .value b :: ts => .ok (.value b, ts)
  | 0, .neg :: _ => .error .tooDeep
  | 0, .opening :: _ => .error .tooDeep
  | levels + 1, .neg :: ts =>
    match operand levels ts with
    | .ok (e, rest) => .ok (.neg e, rest)
    | .error e => .error e
  | levels + 1, .opening :: ts =>
    match disjunction (operand levels) ts with
    | .ok (e, .closing :: rest) => .ok (e, rest)
    | .ok (_, t :: _) => .error (.unexpectedToken t)
    | .ok (_, []) => .error .unexpectedEnd
    | .error e => .error e
  | _, t :: _ => .error (.unexpectedToken t)

def parse (s : List Char) : Except Error Expr :=
  match tokens s with
  | .error e => .error e
  | .ok [] => .error .empty
  | .ok ts =>
    match disjunction (operand maxDepth) ts with
    | .ok (e, []) => .ok e
    | .ok (_, t :: _) => .error (.unexpectedToken t)
    | .error e => .error e

def evaluate (s : List Char) : Except Error Bool :=
  match parse s with
  | .ok e => .ok e.eval
  | .error e => .error e

end Applicability.Boolean
