import Applicability.Proofs.Run.History
import Applicability.Proofs.Run.Rate
import Applicability.Proofs.Run.Result

namespace Applicability

open Catalog

variable {σ : Type}

def CachedParse.Authored : CachedParse → Prop
  | parsed rule _ => rule.Authored
  | failed _ => True

theorem CachedParse.authored_ofParsed (p : Service.Parsed) : (ofParsed p).Authored := by
  unfold ofParsed
  simp only
  split
  · trivial
  split
  · trivial
  rename_i onTrue htrue
  have ht := Status.ofLiteral?_ne_error htrue
  split
  · exact ⟨ht, Status.noConfusion⟩
  split
  · rename_i onFalse hfalse
    exact ⟨ht, Status.ofLiteral?_ne_error hfalse⟩
  · trivial

namespace Fallback

theorem authored_of_mem_entries {keys : List String} {response : Except Service.Error (List Service.Parsed)}
    {e : String × CachedParse} (h : e ∈ entries keys response) : e.2.Authored := by
  cases response with
  | error err =>
    rw [entries] at h
    obtain ⟨key, -, rfl⟩ := List.mem_map.mp h
    trivial
  | ok results =>
    rw [entries, List.mem_mapIdx] at h
    obtain ⟨i, hi, rfl⟩ := h
    dsimp only
    -- A short answer has nothing at this position.
    cases results[i]? with
    | none => trivial
    | some p => exact CachedParse.authored_ofParsed p

theorem authored_fetch (service : Service σ) (key : String) (f : Fallback σ) :
    (fetch service key f).1.Authored := by
  rw [fetch]
  dsimp only
  cases (service.one key f.service).1 with
  | error err => trivial
  | ok p => exact CachedParse.authored_ofParsed p

theorem decided_outcomeOf {p : CachedParse} (h : p.Authored) (name : String) (profile : Profile)
    (key : String) : (outcomeOf name profile key p).Decided := by
  cases p with
  | parsed rule references =>
    simp only [outcomeOf]
    exact (Rule.Authored.decided h profile key references).withSteps _
  | failed reason => exact Outcome.decided_of (by decide) _ _

end Fallback

theorem Service.gives_authored (service : Service σ) : service.Gives fun _ p => p.Authored := by
  constructor
  · intro key f
    exact Fallback.authored_fetch service key f
  · intro keys s e he
    exact Fallback.authored_of_mem_entries he

/-- The result has a report for each test case, each of them decided, and its totals count the reports. -/
structure RunResult.Complete (cases : List TestCase) (result : RunResult) : Prop where
  reports_eq : result.reports.map (fun c => (c.testId, c.condition)) =
    cases.map fun t => (t.testId, t.condition)
  status_ne : ∀ c ∈ result.reports, c.status ≠ .error
  successRate_eq : result.successRate = 100
  matchedIds_eq : result.matchedIds = (result.reports.filter (·.status ∈ applicable)).map (·.testId)
  matchedCount_eq : result.matchedCount = result.matchedIds.length
  mem_breakdown : ∀ token n,
    (token, n) ∈ result.breakdown.toList ↔ n = result.reports.countP (·.status.token = token) ∧ n ≠ 0
  nodup_breakdown : (result.breakdown.toList.map (·.1)).Nodup
  sum_breakdown : (result.breakdown.toList.map (·.2)).sum = result.total
  total_eq : result.total = cases.length

theorem RunResult.complete_of {cases : List TestCase} {v : TestCase → Outcome}
    (hv : ∀ t ∈ cases, (v t).Decided) (summary : RunSummary) :
    (RunResult.of cases (cases.map v) summary).Complete cases := by
  have hreports := reports_of cases v summary
  have htotal : (RunResult.of cases (cases.map v) summary).total = cases.length := by
    rw [total, hreports, List.length_map]
  have hbreakdown := breakdown_of cases v summary
  refine ⟨?_, ?_, ?_, matchedIds_of cases v summary hv, rfl, ?_, ?_, ?_, htotal⟩
  · rw [hreports, List.map_map]
    rfl
  · intro c hc
    rw [hreports] at hc
    obtain ⟨t, ht, rfl⟩ := List.mem_map.mp hc
    exact (hv t ht).status_ne
  · apply successRateOf_eq
    intro o ho
    obtain ⟨t, ht, rfl⟩ := List.mem_map.mp ho
    exact (hv t ht).status_ne
  · intro token n
    rw [countP_reports, hbreakdown, KeyMap.mem_toList_iff (ordered_breakdownOf _)]
    exact get?_breakdownOf _ token n
  · rw [hbreakdown]
    exact KeyMap.nodup_keys (ordered_breakdownOf _)
  · rw [htotal, hbreakdown, sum_breakdownOf, List.length_map]

namespace Engine

variable {engine : Engine σ} {items : List Capability.Item} {catalog : Loaded} {f : Fallback σ}

theorem decided_verdict (hf : f.Holds fun _ p => p.Authored) {t : TestCase} (ht : t ∈ catalog.cases) :
    (Run.verdict engine.service.name (Capability.profile items) (engine.run items catalog f).2.parse?
      (evaluation items catalog t)).Decided := by
  cases he : evaluation items catalog t with
  | resolved o => exact Condition.decided_of_evaluate he
  | deferred key =>
    -- The key has an answer after the run, so the outcome for missing entries is not used.
    obtain ⟨p, hp⟩ := engine.run_answered items catalog f ht he
    have hp' := holds_run engine.service.gives_authored hf items catalog key p hp
    rw [Run.verdict, hp]
    exact Fallback.decided_outcomeOf hp' _ _ key

/-- After any calls of any service, a run over a catalog that loads is complete. -/
theorem filter_complete (s : σ) (history : List Operation) {r : Request} (hload : engine.load r = .ok catalog) :
    ∃ result, (engine.filter r (engine.after s history)).1 = .ok result ∧ result.Complete catalog.cases := by
  rw [filter_of_load hload]
  refine ⟨_, rfl, ?_⟩
  rw [run_result, verdicts]
  apply RunResult.complete_of
  intro t ht
  exact decided_verdict (holds_after engine.service.gives_authored s history) ht

theorem filter_complete_unreliable :
    let answers : List Service.Parsed := [⟨"A.1", "ERROR", "", []⟩, ⟨"A.1", "M", "O", []⟩, ⟨"(", "R", "", []⟩]
    let service : Service Nat :=
      { name := "parser"
        one := fun _ n => ((answers[n]?.map Except.ok).getD (.error (.unavailable "late")), n + 1)
        batch := fun _ n => (if n = 0 then .error (.unavailable "early") else .ok (answers.drop n), n + 1) }
    let engine : Engine Nat := ⟨1, service, none⟩
    let cases : List TestCase := [.of "1" "rain", .of "2" "wind", .of "3" "", .of "4" "rain", .of "5" "snow"]
    let r : Request := ⟨[⟨"A.1", .flag true⟩], none, some ⟨.records cases, .records []⟩⟩
    ∃ result, (engine.filter r (engine.after 0 [.evaluate "wind" [], .filter r, .invalidate "rain"])).1 =
        .ok result ∧ result.Complete cases := by
  intro answers service engine cases r
  have hload : engine.load r = .ok ⟨.empty, cases, none⟩ := rfl
  exact filter_complete 0 [.evaluate "wind" [], .filter r, .invalidate "rain"] hload

end Engine

end Applicability
