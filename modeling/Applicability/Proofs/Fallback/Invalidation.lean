import Applicability.Proofs.Condition.Plain
import Applicability.Proofs.Fallback.Parses

namespace Applicability.Fallback

open Condition

variable {σ : Type}

/-- Dropping the expression finds an entry and takes away that of the key. -/
def Reaches (f : Fallback σ) (expression key : String) : Prop :=
  (f.invalidate expression).1 = true ∧ (f.invalidate expression).2.cache.contains key = false

section Resolved

variable {f : Fallback σ} {key : String}

theorem reaches_iff {expression : String} (h : f.cache.contains key = true) :
    f.Reaches expression key ↔ cacheKey expression = key := by
  have herase : (f.invalidate expression).2.cache.contains key =
      (if cacheKey expression = key then none else f.cache.get? key).isSome :=
    congrArg Option.isSome (KeyMap.get?_erase (cacheKey expression) key)
  rw [Reaches, herase]
  constructor
  · rintro ⟨-, hgone⟩
    by_contra hne
    rw [if_neg hne] at hgone
    exact absurd (h.symm.trans hgone) (by decide)
  · rintro rfl
    rw [if_pos rfl]
    exact ⟨h, rfl⟩

theorem outcomeOf_logic (name : String) (profile : Profile) (key : String) (parse : CachedParse) :
    (outcomeOf name profile key parse).logic = key := by
  cases parse with
  | parsed rule references => simp only [outcomeOf, evaluate_logic]
  | failed reason => simp only [outcomeOf, Outcome.of]

theorem exists_resolveCached (name : String) (profile : Profile) (h : f.cache.contains key = true) :
    ∃ o f', f.resolveCached name profile key = (some o, f') ∧ o.logic = key ∧ f'.cache.contains key = true := by
  obtain ⟨parse, hparse⟩ := Option.isSome_iff_exists.mp (contains_eq f key ▸ h)
  have hfst := resolveCached_fst name profile key f
  rw [hparse] at hfst
  refine ⟨_, _, Prod.ext hfst rfl, outcomeOf_logic name profile key parse, ?_⟩
  rw [contains_eq, resolveCached_parse?, ← contains_eq, h]

end Resolved

/-- Repair is idempotent, keys are their own keys, and the key that an outcome reports reaches the entry from which
the outcome came, exactly where the key does not end in a full stop or semicolon. -/
theorem reaches_by_logic_iff (name : String) (profile : Profile) (text : String) (f : Fallback σ) :
    (repair (repair text) = repair text ↔ ¬EndsInStop (repair text).toList) ∧
      (cacheKey (cacheKey text) = cacheKey text ↔ ¬EndsInStop (cacheKey text).toList) ∧
      (f.cache.contains (cacheKey text) = true →
        ∃ o f', f.resolveCached name profile (cacheKey text) = (some o, f') ∧ o.logic = cacheKey text ∧
          f'.Reaches text (cacheKey text) ∧
          (f'.Reaches o.logic (cacheKey text) ↔ ¬EndsInStop (cacheKey text).toList)) := by
  have hkey : cacheKey (cacheKey text) = cacheKey text ↔ ¬EndsInStop (cacheKey text).toList := by
    rw [cacheKey_eq, cacheKey_eq]
    exact repair_repair_eq_iff text
  refine ⟨repair_repair_eq_iff text, hkey, fun h => ?_⟩
  obtain ⟨o, f', hresolved, hlogic, hkept⟩ := exists_resolveCached name profile h
  refine ⟨o, f', hresolved, hlogic, ?_, ?_⟩
  · exact (reaches_iff hkept).mpr rfl
  · rw [hlogic, reaches_iff hkept, hkey]

theorem reaches_by_logic_iff_rain :
    let f := ((start ()).fetch (.offline Unit) "rain").2
    f.cache.contains (cacheKey " rain.") = true ∧
      ∃ o f', f.resolveCached "offline" .empty (cacheKey " rain.") = (some o, f') ∧ o.logic = "rain" ∧
        f'.Reaches o.logic "rain" := by
  intro f
  have hkey : cacheKey " rain." = "rain" := by decide +kernel
  have hkept : f.cache.contains (cacheKey " rain.") = true := by decide +kernel
  obtain ⟨-, -, hresolve⟩ := reaches_by_logic_iff "offline" .empty " rain." f
  obtain ⟨o, f', hresolved, hlogic, -, hreaches⟩ := hresolve hkept
  rw [hkey] at hlogic hreaches
  exact ⟨hkept, o, f', hresolved, hlogic, hreaches.mpr (by decide +kernel)⟩

theorem not_reaches_by_logic :
    let (resolved, f) := (start ()).resolveOne (.offline Unit) .empty "rain . ."
    repair (repair "rain . .") ≠ repair "rain . ." ∧ resolved.1.logic = cacheKey "rain . ." ∧
      f.cache.contains resolved.1.logic = true ∧ (f.invalidate resolved.1.logic).1 = false := by
  decide +kernel

end Applicability.Fallback
