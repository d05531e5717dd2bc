import Applicability.Condition.Rule
import Applicability.KeyMap
import Applicability.Outcome
import Applicability.Service.Parsed

namespace Applicability

inductive CachedParse where
  | parsed (rule : Rule) (references : List String)
  | failed (reason : String)
  deriving DecidableEq, Repr

namespace CachedParse

def isFailure : CachedParse → Bool
  | parsed .. => false
  | failed _ => true

def ofParsed (p : Service.Parsed) : CachedParse :=
  let antecedent := Text.trim p.antecedent.toList
  if antecedent.isEmpty then .failed "parser returned an empty antecedent"
  else match Status.ofLiteral? p.thenToken.toList with
    | none => .failed ("parser returned invalid THEN value '" ++ p.thenToken ++ "'")
    | some onTrue =>
      let rule := fun onFalse => Rule.mk (String.ofList antecedent) onTrue onFalse
      if Text.isBlankText p.elseToken then .parsed (rule .notApplicable) p.references
      else match Status.ofLiteral? p.elseToken.toList with
        | some onFalse => .parsed (rule onFalse) p.references
        | none => .failed ("parser returned invalid ELSE value '" ++ p.elseToken ++ "'")

end CachedParse

structure CacheEntry where
  parse : CachedParse
  lastOutcome : Option Outcome
  deriving DecidableEq, Repr

abbrev Cache := KeyMap CacheEntry

namespace Cache

def insertParses (cache : Cache) (entries : List (String × CachedParse)) : Cache :=
  KeyMap.insertAll cache (entries.map fun e => (e.1, ⟨e.2, none⟩))

def recordOutcome (cache : Cache) (key : String) (o : Outcome) : Cache :=
  KeyMap.modify cache key fun e => { e with lastOutcome := some o }

end Cache

end Applicability
