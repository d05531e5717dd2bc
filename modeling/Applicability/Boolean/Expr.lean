namespace Applicability.Boolean

inductive Expr where
  | value (b : Bool)
  | neg (e : Expr)
  | conj (l r : Expr)
  | disj (l r : Expr)
  deriving DecidableEq, Repr

def Expr.eval : Expr → Bool
  | value b => b
  | neg e => !e.eval
  | conj l r => l.eval && r.eval
  | disj l r => l.eval || r.eval

end Applicability.Boolean
