import Applicability.Proofs.Run.Accounting
import Applicability.Proofs.Run.Events

namespace Applicability

open Condition

variable {σ : Type}

namespace Engine

open Catalog

variable (engine : Engine σ)

theorem flatten_chunks_newKeys (items : List Capability.Item) (catalog : Loaded) (f : Fallback σ) :
    (Lists.chunks (max engine.batchSize 1) (newKeys items catalog f)).flatten = newKeys items catalog f := by
  have hkeys := (engine.tally_flushed items catalog f).keys_eq
  rwa [flushed, Fallback.flush_pending, List.append_nil] at hkeys

theorem asks_run (items : List Capability.Item) (catalog : Loaded) (f : Fallback σ) :
    f.Asks (engine.run items catalog f).2 := by
  have htally := engine.tally_flushed items catalog f
  have hflatten := engine.flatten_chunks_newKeys items catalog f
  have hcalls : (engine.run items catalog f).2.calls = f.calls ++
      (Lists.chunks (max engine.batchSize 1) (newKeys items catalog f)).map .batch :=
    (engine.run_calls items catalog f).trans htally.calls_eq
  have hsent : f.sentUntil (engine.run items catalog f).2 = newKeys items catalog f := by
    rw [Fallback.sentUntil_of_append _ hcalls, List.flatMap_map]
    exact List.flatMap_id.trans hflatten
  refine ⟨?_, ?_, ?_, ?_⟩
  · rw [hcalls]
    exact List.prefix_append _ _
  · rw [hsent]
    exact Lists.nodup_eraseDups _
  · rw [hsent]
    intro key hkey
    rw [newKeys, Fallback.absent, List.mem_eraseDups, List.mem_filter] at hkey
    simpa [Fallback.residents] using hkey.2
  · rw [hsent]
    ext key
    simp only [Fallback.residents, Set.mem_ofPred_eq, Set.mem_union, Fallback.contains_eq, run_parse?]
    rw [htally.known key, hflatten]

theorem asks_filter (r : Request) (f : Fallback σ) : f.Asks (engine.filter r f).2 := by
  cases hload : engine.load r with
  | error e =>
    rw [filter_of_error hload]
    exact Fallback.asks_refl f
  | ok catalog =>
    rw [filter_of_load hload]
    exact engine.asks_run r.items catalog f

def events (f : Fallback σ) (op : Operation) : List Event :=
  (f.sentUntil (engine.perform f op)).map .sent ++
    match op with
    | .filter _ | .evaluate _ _ => []
    | .invalidate expression => [.invalidated expression (f.invalidate expression).1]
    | .clear => [.cleared]

def trace (engine : Engine σ) (f : Fallback σ) : List Operation → List Event
  | [] => []
  | op :: history => engine.events f op ++ engine.trace (engine.perform f op) history

theorem calls_perform (f : Fallback σ) (op : Operation) : f.calls <+: (engine.perform f op).calls := by
  cases op with
  | filter r => exact (engine.asks_filter r f).calls
  | evaluate expression items => exact (Fallback.asks_resolveOne engine.service _ expression f).calls
  | invalidate | clear => exact List.prefix_rfl

theorem calls_foldl_perform (f : Fallback σ) (history : List Operation) :
    f.calls <+: (history.foldl engine.perform f).calls := by
  induction history generalizing f with
  | nil => exact List.prefix_rfl
  | cons op history ih => exact (engine.calls_perform f op).trans (ih _)

theorem sent_events (f : Fallback σ) (op : Operation) :
    (engine.events f op).filterMap Event.sentKey? = f.sentUntil (engine.perform f op) := by
  have hsent : ∀ keys : List String, (keys.map Event.sent).filterMap Event.sentKey? = keys := by
    intro keys
    rw [List.filterMap_map]
    exact List.filterMap_some
  unfold events
  rw [List.filterMap_append, hsent]
  cases op <;> exact List.append_nil _

theorem sent_trace (f : Fallback σ) (history : List Operation) :
    (engine.trace f history).filterMap Event.sentKey? = f.sentUntil (history.foldl engine.perform f) := by
  induction history generalizing f with
  | nil => exact (Fallback.sentUntil_of_eq rfl).symm
  | cons op history ih =>
    rw [trace, List.filterMap_append, sent_events, ih, List.foldl_cons]
    exact (Fallback.sentUntil_trans (engine.calls_perform f op) (engine.calls_foldl_perform _ history)).symm

theorem lawful_events (f : Fallback σ) (op : Operation) :
    Event.Lawful f.residents (engine.events f op) ∧
      (engine.events f op).foldl Event.residents f.residents = (engine.perform f op).residents := by
  cases op with
  | filter r =>
    rw [events, List.append_nil]
    exact (engine.asks_filter r f).lawful
  | evaluate expression items =>
    rw [events, List.append_nil]
    exact (Fallback.asks_resolveOne engine.service _ expression f).lawful
  | invalidate expression =>
    have hsent : f.sentUntil (engine.perform f (.invalidate expression)) = [] := Fallback.sentUntil_of_eq rfl
    rw [events, hsent]
    refine ⟨⟨Iff.rfl, trivial⟩, ?_⟩
    ext key
    simp only [List.map_nil, List.nil_append, List.foldl_cons, List.foldl_nil, Event.residents, perform,
      Fallback.invalidate, Fallback.invalidateKey, Fallback.residents, Set.mem_sdiff, Set.mem_ofPred_eq,
      Set.mem_singleton_iff, KeyMap.contains, KeyMap.get?_erase]
    by_cases hkey : cacheKey expression = key
    · simp [hkey]
    · simp [hkey, Ne.symm hkey]
  | clear =>
    have hsent : f.sentUntil (engine.perform f .clear) = [] := Fallback.sentUntil_of_eq rfl
    rw [events, hsent]
    refine ⟨⟨trivial, trivial⟩, ?_⟩
    ext key
    simp [Event.residents, perform, Fallback.clear, Fallback.residents, KeyMap.contains]

theorem lawful_trace (f : Fallback σ) (history : List Operation) :
    Event.Lawful f.residents (engine.trace f history) := by
  induction history generalizing f with
  | nil => trivial
  | cons op history ih =>
    obtain ⟨hlawful, hresidents⟩ := engine.lawful_events f op
    rw [trace, Event.lawful_append, hresidents]
    exact ⟨hlawful, ih _⟩

section Repeating

variable (items : List Capability.Item) (catalog : Loaded) (f : Fallback σ)

theorem newKeys_run : newKeys items catalog (engine.run items catalog f).2 = [] := by
  -- What the second run asks for was answered by the first.
  have hknown : ∀ key ∈ Run.askedKeys (Capability.profile items) catalog.conditions catalog.cases,
      (engine.run items catalog f).2.cache.contains key = true := by
    intro key hkey
    obtain ⟨t, ht, hasked⟩ := List.mem_filterMap.mp hkey
    change (evaluation items catalog t).key? = some key at hasked
    cases he : evaluation items catalog t with
    | resolved o =>
      rw [he] at hasked
      cases hasked
    | deferred key' =>
      rw [he] at hasked
      obtain rfl := Option.some.inj hasked
      obtain ⟨p, hp⟩ := engine.run_answered items catalog f ht he
      exact Fallback.contains_of_some hp
  have hnone : (Run.askedKeys (Capability.profile items) catalog.conditions catalog.cases).filter
      (fun key => !(engine.run items catalog f).2.cache.contains key) = [] := by
    rw [List.filter_eq_nil_iff]
    intro key hkey
    simp [hknown key hkey]
  rw [newKeys, Fallback.absent, hnone, List.eraseDups_nil]

theorem tally_again :
    Run.Tally (engine.run items catalog f).2 [] (engine.flushed items catalog (engine.run items catalog f).2).1
      (engine.flushed items catalog (engine.run items catalog f).2).2 [] := by
  have htally := engine.tally_flushed items catalog (engine.run items catalog f).2
  rwa [newKeys_run, Lists.chunks_nil (by omega)] at htally

theorem verdicts_again :
    engine.verdicts items catalog (engine.run items catalog (engine.run items catalog f).2).2 =
      engine.verdicts items catalog (engine.run items catalog f).2 := by
  refine List.map_congr_left fun t ht => ?_
  cases he : evaluation items catalog t with
  | resolved o => rfl
  | deferred key =>
    obtain ⟨p, hp⟩ := engine.run_answered items catalog f ht he
    rw [Run.verdict, Run.verdict, hp, engine.run_kept items catalog hp]

end Repeating

structure Repeats (result again : RunResult) : Prop where
  reports_eq : again.reports = result.reports
  matchedIds_eq : again.matchedIds = result.matchedIds
  breakdown_eq : again.breakdown = result.breakdown
  parserCalls_eq : again.summary.stats.parserCalls = 0
  cacheMisses_eq : again.summary.stats.cacheMisses = 0
  failures_eq : again.summary.stats.failures = 0

theorem repeats_run (items : List Capability.Item) (catalog : Loaded) (f : Fallback σ) :
    Repeats (engine.run items catalog f).1 (engine.run items catalog (engine.run items catalog f).2).1 := by
  have htally := engine.tally_again items catalog f
  have hverdicts := engine.verdicts_again items catalog f
  rw [engine.run_result items catalog f, run_result, hverdicts]
  exact ⟨rfl, rfl, rfl, htally.parserCalls_eq, htally.cacheMisses_eq, htally.failures_eq⟩

theorem run_again_calls (items : List Capability.Item) (catalog : Loaded) (f : Fallback σ) :
    (engine.run items catalog (engine.run items catalog f).2).2.calls = (engine.run items catalog f).2.calls := by
  rw [run_calls, (engine.tally_again items catalog f).calls_eq]
  exact List.append_nil _

/-- Between two moments at which a key is sent, its entry was invalidated or the cache was cleared. So nothing is
sent for a request that was just answered, not even where the answers were failures. -/
theorem sent_once_per_residence (f : Fallback σ) :
    (∀ history : List Operation, (engine.trace f history).filterMap Event.sentKey? =
      f.sentUntil (history.foldl engine.perform f)) ∧
    (∀ (history : List Operation) (key : String) (before between later : List Event),
      engine.trace f history = before ++ .sent key :: between ++ .sent key :: later →
      (∃ expression, cacheKey expression = key ∧ .invalidated expression true ∈ between) ∨
        .cleared ∈ between) ∧
    ∀ r : Request,
      (engine.filter r (engine.filter r f).2).2.calls = (engine.filter r f).2.calls ∧
      (∀ e, (engine.filter r f).1 = .error e → (engine.filter r (engine.filter r f).2).1 = .error e) ∧
      ∀ result, (engine.filter r f).1 = .ok result →
        ∃ again, (engine.filter r (engine.filter r f).2).1 = .ok again ∧ Repeats result again := by
  refine ⟨engine.sent_trace f, ?_, ?_⟩
  · intro history key before between later htrace
    have hlawful := engine.lawful_trace f history
    rw [htrace, List.append_assoc, Event.lawful_append] at hlawful
    obtain ⟨e, hmem, hdrops⟩ := Event.exists_drops (Set.mem_insert key _) hlawful.2.2
    cases e with
    | sent key' => exact hdrops.elim
    | invalidated expression found =>
      obtain ⟨hexpression, rfl⟩ := hdrops
      exact .inl ⟨expression, hexpression, hmem⟩
    | cleared => exact .inr hmem
  · intro r
    cases hload : engine.load r with
    | error e =>
      rw [filter_of_error hload, filter_of_error hload]
      refine ⟨rfl, fun _ he => he, ?_⟩
      intro result hresult
      cases hresult
    | ok catalog =>
      rw [filter_of_load hload, filter_of_load hload]
      refine ⟨engine.run_again_calls r.items catalog f, ?_, ?_⟩
      · intro e he
        cases he
      · intro result hresult
        obtain rfl := Except.ok.inj hresult
        exact ⟨_, rfl, engine.repeats_run r.items catalog f⟩

theorem sent_once_per_residence_outage :
    let engine : Engine Unit := ⟨2, .offline Unit, none⟩
    let cases : List TestCase := [.of "1" "rain", .of "2" "wind", .of "3" "rain", .of "4" "snow"]
    let r : Request := ⟨[], none, some ⟨.records cases, .records []⟩⟩
    let history : List Operation := [.filter r, .invalidate " rain .", .filter r, .clear, .evaluate "rain" []]
    let between : List Event := [.sent "wind", .sent "snow", .invalidated " rain ." true]
    engine.trace (.start ()) history =
        [] ++ .sent "rain" :: between ++ .sent "rain" :: [.cleared, .sent "rain"] ∧
      ((∃ expression, cacheKey expression = "rain" ∧ .invalidated expression true ∈ between) ∨
        .cleared ∈ between) ∧
      (engine.filter r (engine.filter r (.start ())).2).2.calls = (engine.filter r (.start ())).2.calls ∧
      ∃ result again, (engine.filter r (.start ())).1 = .ok result ∧
        (engine.filter r (engine.filter r (.start ())).2).1 = .ok again ∧ Repeats result again := by
  intro engine cases r history between
  obtain ⟨-, honce, hrepeat⟩ := sent_once_per_residence engine (.start ())
  have htrace : engine.trace (.start ()) history =
      [] ++ .sent "rain" :: between ++ .sent "rain" :: [.cleared, .sent "rain"] := by decide +kernel
  have hload : engine.load r = .ok ⟨.empty, cases, none⟩ := rfl
  have hfirst : (engine.filter r (.start ())).1 = .ok (engine.run [] ⟨.empty, cases, none⟩ (.start ())).1 := by
    rw [filter_of_load hload]
  obtain ⟨hcalls, -, hresult⟩ := hrepeat r
  obtain ⟨again, hagain, hrepeats⟩ := hresult _ hfirst
  refine ⟨htrace, honce history "rain" [] between [.cleared, .sent "rain"] htrace, hcalls, ?_⟩
  exact ⟨_, again, hfirst, hagain, hrepeats⟩

end Engine

end Applicability
