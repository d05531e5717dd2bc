import Applicability.Proofs.Catalog.Shapes
import Applicability.Proofs.Json.Encoding
import Mathlib.Data.List.Find
import Mathlib.Logic.Relation

namespace Applicability.Catalog

open Json

def TestCase.ofTexts (text : Column → Option String) : TestCase where
  testId := (text .testId).getD ""
  specificationId := (text .specificationId).getD ""
  condition := (text .condition).getD ""
  clause := text .clause
  title := text .title
  release := text .release
  comment := text .comment

def TestCase.Draft.ofTexts (text : Column → Option String) : TestCase.Draft where
  testId := text .testId
  specificationId := text .specificationId
  condition := text .condition
  clause := (text .clause).map some
  title := (text .title).map some
  release := (text .release).map some
  comment := (text .comment).map some

def Column.fieldNames : Column → List String
  | testId => ["test_id", "tc_id", "id"]
  | specificationId => ["specification_id", "spec_id"]
  | condition => ["applicability_condition", "condition", "applicability"]
  | clause => ["clause"]
  | title => ["title"]
  | release => ["release"]
  | comment => ["comment", "comments"]

namespace Table

def cells (headers : List String) (row : List Value) : List (Column × Value) :=
  (headers.zip row).filterMap fun p => (Column.ofHeader? p.1).map fun c => (c, p.2)

def textUnder (headers : List String) (row : List Value) (c : Column) : Option String :=
  ((cells headers row).find? fun e => e.1 = c).bind fun e => cellText e.2

def hasId (headers : List String) (row : List Value) : Bool :=
  !((textUnder headers row .testId).getD "").isEmpty

/-- No two headers mean the same column, and no row ends before the headers do. -/
structure Regular (table : Table) : Prop where
  distinct : (table.headers.filterMap Column.ofHeader?).Nodup
  wide : ∀ row ∈ table.rows, table.headers.length ≤ row.length

inductive SameHeader (a b : String) : Prop
  | spelled (h : List.Forall₂ (fun c d => c.toLower = d.toLower) (Text.trim a.toList) (Text.trim b.toList))
  | named (c : Column) (ha : a ∈ c.headers) (hb : b ∈ c.headers)

/-- Columns change places, a column without a meaning is put in, rows get more cells, or headers are written in another
way. -/
inductive Rearranges : Table → Table → Prop
  | permute {headers : List String} {is : List Nat} (rows : List (List Value))
      (h : is.Perm (List.range headers.length)) :
      Rearranges ⟨headers, rows⟩
        ⟨Lists.pick is headers, rows.map fun row => Lists.pick is row ++ row.drop headers.length⟩
  | insert {headers : List String} {rows rows' : List (List Value)} {i : Nat} {header : String}
      (hi : i ≤ headers.length) (hheader : Column.ofHeader? header = none)
      (hrows : List.Forall₂ (fun row row' => ∃ v, row' = row.insertIdx i v) rows rows') :
      Rearranges ⟨headers, rows⟩ ⟨headers.insertIdx i header, rows'⟩
  | extend {rows rows' : List (List Value)} (headers : List String) (hrows : List.Forall₂ (· <+: ·) rows rows') :
      Rearranges ⟨headers, rows⟩ ⟨headers, rows'⟩
  | respell {headers headers' : List String} (rows : List (List Value))
      (hheaders : List.Forall₂ SameHeader headers headers') : Rearranges ⟨headers, rows⟩ ⟨headers', rows⟩

/-- The record has the cells of the row under names of their fields, in any order. -/
inductive RecordOf (headers : List String) (row : List Value) : Value → Prop
  | intro {ms : List (String × Column × Value)} (hnames : ∀ m ∈ ms, m.1 ∈ m.2.1.fieldNames)
      (hcells : (cells headers row).Perm (ms.map Prod.snd)) :
      RecordOf headers row (.object (ms.map fun m => (m.1, m.2.2)))

def IsTrimmed : Value → Prop
  | .string s => Text.trimmed s = s
  | _ => False

instance : DecidablePred IsTrimmed
  | .string s => inferInstanceAs (Decidable (Text.trimmed s = s))
  | .null | .bool _ | .number _ | .array _ | .object _ => inferInstanceAs (Decidable False)

theorem IsTrimmed.exists_string {v : Value} (h : IsTrimmed v) : ∃ s, v = .string s ∧ Text.trimmed s = s := by
  cases v with
  | string s => exact ⟨s, rfl, h⟩
  | _ => cases h

section Texts

variable {text : Column → Option String} {es es' : List (Column × Value)}

def overlay (text : Column → Option String) (es : List (Column × Value)) (c : Column) : Option String :=
  (es.find? fun e => e.1 = c).elim (text c) fun e => cellText e.2

theorem overlay_cons {e : Column × Value} (h : e.1 ∉ es.map Prod.fst) :
    overlay text (e :: es) = overlay (Function.update text e.1 (cellText e.2)) es := by
  funext c
  by_cases hc : e.1 = c
  · subst hc
    have hnone : (es.find? fun e' => e'.1 = e.1) = none := by
      rw [List.find?_eq_none]
      intro e' he'
      simpa using fun heq : e'.1 = e.1 => h (heq ▸ List.mem_map_of_mem he')
    simp [overlay, hnone]
  · simp [overlay, hc, Function.update_of_ne (Ne.symm hc)]

theorem overlay_of_perm (h : es.Perm es') (hdistinct : (es.map Prod.fst).Nodup) :
    overlay text es = overlay text es' := by
  funext c
  have hfind : (es.find? fun e => e.1 = c) = es'.find? fun e => e.1 = c := by
    refine List.find?_eq_find?_of_perm h ?_
    rintro e ⟨he, hec⟩ e' ⟨he', hec'⟩
    have hkeys : e.1 = e'.1 := (of_decide_eq_true hec).trans (of_decide_eq_true hec').symm
    exact List.inj_on_of_nodup_map hdistinct he he' hkeys
  rw [overlay, overlay, hfind]

theorem textUnder_eq (headers : List String) (row : List Value) :
    textUnder headers row = overlay (fun _ => none) (cells headers row) := by
  funext c
  rw [textUnder, overlay]
  cases (cells headers row).find? fun e => e.1 = c <;> rfl

theorem set_ofTexts (c : Column) (x : Option String) (text : Column → Option String) :
    c.set x (.ofTexts text) = .ofTexts (Function.update text c x) := by
  cases c <;> rfl

theorem foldl_set_ofTexts (hdistinct : (es.map Prod.fst).Nodup) :
    es.foldl (fun t e => e.1.set (cellText e.2) t) (.ofTexts text) = .ofTexts (overlay text es) := by
  induction es generalizing text with
  | nil => rfl
  | cons e es ih =>
    obtain ⟨he, hes⟩ := List.nodup_cons.mp hdistinct
    rw [List.foldl_cons, set_ofTexts, ih hes, overlay_cons he]

end Texts

section Rows

variable {headers headers' : List String} {row row' : List Value} {table table' : Table}

theorem keys_cells (h : headers.length ≤ row.length) :
    (cells headers row).map Prod.fst = headers.filterMap Column.ofHeader? := by
  have hkeys : (cells headers row).map Prod.fst = ((headers.zip row).map Prod.fst).filterMap Column.ofHeader? := by
    rw [cells, List.map_filterMap, List.filterMap_map]
    apply List.filterMap_congr
    intro p _
    simp [Option.map_map, Function.comp_def]
  rw [hkeys, List.map_fst_zip h]

theorem fill_eq_foldl (t : TestCase) (headers : List String) (row : List Value) :
    fill t (headers.map Column.ofHeader?) row = (cells headers row).foldl (fun t e => e.1.set (cellText e.2) t) t := by
  induction headers generalizing t row with
  | nil => rfl
  | cons header headers ih =>
    cases row with
    | nil => cases hheader : Column.ofHeader? header <;> simp [fill, cells, hheader]
    | cons v row =>
      cases hheader : Column.ofHeader? header with
      | none => simpa [fill, cells, hheader] using ih t row
      | some c => simpa [fill, cells, hheader] using ih (c.set (cellText v) t) row

theorem Regular.distinct_cells (h : table.Regular) (hrow : row ∈ table.rows) :
    ((cells table.headers row).map Prod.fst).Nodup := by
  rw [keys_cells (h.wide row hrow)]
  exact h.distinct

theorem Regular.testCases_eq (h : table.Regular) :
    table.testCases =
      (table.rows.map fun row => .ofTexts (textUnder table.headers row)).filter fun t => !t.testId.isEmpty := by
  have hrows : table.rows.map (fill .blank (table.headers.map Column.ofHeader?)) =
      table.rows.map fun row => .ofTexts (textUnder table.headers row) := by
    apply List.map_congr_left
    intro row hrow
    have hblank : TestCase.blank = .ofTexts fun _ => none := rfl
    rw [hblank, fill_eq_foldl, foldl_set_ofTexts (h.distinct_cells hrow), textUnder_eq]
  exact congrArg (List.filter fun t => !t.testId.isEmpty) hrows

theorem Regular.testCases_eq_map (h : table.Regular) :
    table.testCases =
      (table.rows.filter (hasId table.headers)).map fun row => .ofTexts (textUnder table.headers row) := by
  rw [h.testCases_eq, List.filter_map]
  rfl

end Rows

section Rearranging

variable {headers headers' : List String} {row row' : List Value} {table table' : Table}

theorem ofHeader?_of_mem {c : Column} {header : String} (h : header ∈ c.headers) :
    Column.ofHeader? header = some c := by
  revert header
  cases c <;> decide

theorem SameHeader.ofHeader?_eq {a b : String} (h : SameHeader a b) : Column.ofHeader? a = Column.ofHeader? b := by
  cases h with
  | spelled h =>
    have hlower : (Text.trim a.toList).map Char.toLower = (Text.trim b.toList).map Char.toLower := by
      rwa [← List.forall₂_eq_eq_eq, List.forall₂_map_left_iff, List.forall₂_map_right_iff]
    rw [Column.ofHeader?, Column.ofHeader?, hlower]
  | named c ha hb => rw [ofHeader?_of_mem ha, ofHeader?_of_mem hb]

theorem map_ofHeader?_eq (h : List.Forall₂ SameHeader headers headers') :
    headers.map Column.ofHeader? = headers'.map Column.ofHeader? := by
  rw [← List.forall₂_eq_eq_eq, List.forall₂_map_left_iff, List.forall₂_map_right_iff]
  exact h.imp fun _ _ => SameHeader.ofHeader?_eq

theorem filterMap_ofHeader?_eq (h : List.Forall₂ SameHeader headers headers') :
    headers'.filterMap Column.ofHeader? = headers.filterMap Column.ofHeader? := by
  have hmap := congrArg (List.filterMap id) (map_ofHeader?_eq h)
  rwa [List.filterMap_map, List.filterMap_map, Function.id_comp, eq_comm] at hmap

theorem cells_eq_of_sameHeader (h : List.Forall₂ SameHeader headers headers') (row : List Value) :
    cells headers' row = cells headers row := by
  have hcells : ∀ headers : List String, cells headers row =
      ((headers.map Column.ofHeader?).zip row).filterMap fun p => p.1.map fun c => (c, p.2) := by
    intro headers
    rw [cells, List.zip_map_left, List.filterMap_map]
    apply List.filterMap_congr
    intro p _
    simp only [Function.comp_apply, Prod.map_fst, Prod.map_snd, id]
  rw [hcells, hcells, map_ofHeader?_eq h]

theorem cells_pick {is : List Nat} (h : is.Perm (List.range headers.length)) (hrow : headers.length ≤ row.length)
    (rest : List Value) : (cells headers row).Perm (cells (Lists.pick is headers) (Lists.pick is row ++ rest)) := by
  have hplaces : ∀ i ∈ is, i < headers.length := fun i hi => List.mem_range.mp (h.mem_iff.mp hi)
  have hlength : (headers.zip row).length = headers.length := by
    rw [List.length_zip]
    exact Nat.min_eq_left hrow
  rw [cells, cells, Lists.pick_zip hplaces fun i hi => Nat.lt_of_lt_of_le (hplaces i hi) hrow]
  rw [← hlength] at h
  exact ((Lists.pick_perm h).filterMap _).symm

theorem cells_insertIdx {i : Nat} {header : String} (hi : i ≤ headers.length)
    (hheader : Column.ofHeader? header = none) (hrow : headers.length ≤ row.length) (v : Value) :
    (cells headers row).Perm (cells (headers.insertIdx i header) (row.insertIdx i v)) := by
  have hzip : i ≤ (headers.zip row).length := by
    rw [List.length_zip]
    omega
  have hperm := (List.perm_insertIdx (header, v) (headers.zip row) hzip).filterMap
    fun p => (Column.ofHeader? p.1).map fun c => (c, p.2)
  rw [List.filterMap_cons_none (by simp [hheader])] at hperm
  rw [cells, cells, Lists.zip_insertIdx hi (hi.trans hrow)]
  exact hperm.symm

theorem cells_of_isPrefix (hrow : headers.length ≤ row.length) (h : row <+: row') :
    cells headers row' = cells headers row := by
  obtain ⟨rest, rfl⟩ := h
  rw [cells, cells, Lists.zip_append_of_le hrow]

theorem Rearranges.regular (h : Rearranges table table') (ht : table.Regular) : table'.Regular := by
  obtain ⟨hdistinct, hwide⟩ := ht
  cases h with
  | @permute headers is rows h =>
    have hplaces : ∀ i ∈ is, i < headers.length := fun i hi => List.mem_range.mp (h.mem_iff.mp hi)
    refine ⟨((Lists.pick_perm h).filterMap _).nodup_iff.mpr hdistinct, ?_⟩
    rw [List.forall_mem_map]
    intro row hrow
    have hplaces' : ∀ i ∈ is, i < row.length := fun i hi => Nat.lt_of_lt_of_le (hplaces i hi) (hwide row hrow)
    rw [List.length_append, Lists.length_pick hplaces, Lists.length_pick hplaces']
    exact Nat.le_add_right _ _
  | @insert headers rows rows' i header hi hheader hrows =>
    constructor
    · have hperm := (List.perm_insertIdx header headers hi).filterMap Column.ofHeader?
      rw [List.filterMap_cons_none hheader] at hperm
      exact hperm.nodup_iff.mpr hdistinct
    · intro row' hrow'
      obtain ⟨row, hrow, v, rfl⟩ := Lists.exists_left_of_mem hrows hrow'
      have hlength := hwide row hrow
      rw [List.length_insertIdx_of_le_length hi, List.length_insertIdx_of_le_length (hi.trans hlength)]
      exact Nat.succ_le_succ hlength
  | @extend rows rows' headers hrows =>
    refine ⟨hdistinct, fun row' hrow' => ?_⟩
    obtain ⟨row, hrow, hprefix⟩ := Lists.exists_left_of_mem hrows hrow'
    exact (hwide row hrow).trans hprefix.length_le
  | @respell headers headers' rows hheaders =>
    constructor
    · rw [filterMap_ofHeader?_eq hheaders]
      exact hdistinct
    · intro row hrow
      rw [← hheaders.length_eq]
      exact hwide row hrow

theorem Rearranges.cells_perm (h : Rearranges table table') (ht : table.Regular) :
    List.Forall₂ (fun row row' => (cells table.headers row).Perm (cells table'.headers row')) table.rows
      table'.rows := by
  have hwide := ht.wide
  cases h with
  | @permute headers is rows h =>
    rw [List.forall₂_map_right_iff, List.forall₂_same]
    exact fun row hrow => cells_pick h (hwide row hrow) _
  | @insert headers rows rows' i header hi hheader hrows =>
    refine ((List.forall₂_and_left rows rows').mpr ⟨hwide, hrows⟩).imp ?_
    rintro row _ ⟨hrow, v, rfl⟩
    exact cells_insertIdx hi hheader hrow v
  | @extend rows rows' headers hrows =>
    refine ((List.forall₂_and_left rows rows').mpr ⟨hwide, hrows⟩).imp ?_
    rintro row row' ⟨hrow, hprefix⟩
    exact (cells_of_isPrefix hrow hprefix).symm ▸ .refl _
  | @respell headers headers' rows hheaders =>
    rw [List.forall₂_same]
    exact fun row _ => (cells_eq_of_sameHeader hheaders row).symm ▸ .refl _

theorem Rearranges.testCases_eq (h : Rearranges table table') (ht : table.Regular) :
    table'.testCases = table.testCases := by
  have hcases : table.rows.map (fun row => TestCase.ofTexts (textUnder table.headers row)) =
      table'.rows.map fun row => TestCase.ofTexts (textUnder table'.headers row) := by
    rw [← List.forall₂_eq_eq_eq, List.forall₂_map_left_iff, List.forall₂_map_right_iff]
    refine ((List.forall₂_and_left _ _).mpr ⟨fun _ => ht.distinct_cells, h.cells_perm ht⟩).imp ?_
    rintro row row' ⟨hdistinct, hperm⟩
    rw [textUnder_eq, textUnder_eq, overlay_of_perm hperm hdistinct]
  rw [(h.regular ht).testCases_eq, ht.testCases_eq, hcases]

theorem testCases_of_rearranges (h : Relation.ReflTransGen Rearranges table table') (ht : table.Regular) :
    table'.Regular ∧ table'.testCases = table.testCases := by
  induction h with
  | refl => exact ⟨ht, rfl⟩
  | tail _ hstep ih =>
    obtain ⟨hregular, heq⟩ := ih
    exact ⟨hstep.regular hregular, (hstep.testCases_eq hregular).trans heq⟩

end Rearranging

section Records

variable {levels inner : Levels} {text : Column → Option String}

theorem finish_ofTexts (text : Column → Option String) :
    (TestCase.Draft.ofTexts text).finish = TestCase.ofTexts text := by
  simp only [TestCase.Draft.ofTexts, TestCase.Draft.finish, TestCase.ofTexts]
  cases text .clause <;> cases text .title <;> cases text .release <;> cases text .comment <;> rfl

theorem find?_hasName {c : Column} {name : String} (h : name ∈ c.fieldNames) :
    TestCase.fields.find? (·.hasName name) = TestCase.fields[Column.all.idxOf c]? := by
  revert name
  cases c <;> simp only [Column.fieldNames, List.forall_mem_cons]
  case testId | condition => exact ⟨rfl, rfl, rfl, List.forall_mem_nil _⟩
  case specificationId | comment => exact ⟨rfl, rfl, List.forall_mem_nil _⟩
  all_goals exact ⟨rfl, List.forall_mem_nil _⟩

theorem exists_field (c : Column) : ∃ f, TestCase.fields[Column.all.idxOf c]? = some f ∧
    ∀ text, f.isSet (.ofTexts text) = (text c).isSome ∧ ∀ (levels : Levels) (s : String),
      f.read levels (.string s) (.ofTexts text) = .ok (.ofTexts (Function.update text c (some s))) := by
  cases c
  case testId | specificationId | condition => exact ⟨_, rfl, fun _ => ⟨rfl, fun _ _ => rfl⟩⟩
  all_goals exact ⟨_, rfl, fun _ => ⟨Option.isSome_map, fun _ _ => rfl⟩⟩

theorem readMember_ofTexts {c : Column} {name : String} (hname : name ∈ c.fieldNames) (hfree : text c = none)
    (s : String) : Field.readMember TestCase.fields levels (.ok name, .string s) (.ofTexts text) =
      .ok (.ofTexts (Function.update text c (some s))) := by
  obtain ⟨f, hfind, hf⟩ := exists_field c
  obtain ⟨hset, hread⟩ := hf text
  rw [Field.readMember_of_some ((find?_hasName hname).trans hfind), hset, hfree]
  exact hread levels s

theorem readMembers_ofTexts {ms : List (String × Column × Value)} (hnames : ∀ m ∈ ms, m.1 ∈ m.2.1.fieldNames)
    (htrimmed : ∀ m ∈ ms, IsTrimmed m.2.2) (hdistinct : ((ms.map Prod.snd).map Prod.fst).Nodup)
    (hfree : ∀ m ∈ ms, text m.2.1 = none) :
    Field.readMembers TestCase.fields levels (Node.ofMembers (ms.map fun m => (m.1, m.2.2))) (.ofTexts text) =
      .ok (.ofTexts (overlay text (ms.map Prod.snd))) := by
  induction ms generalizing text with
  | nil => rfl
  | cons m ms ih =>
    obtain ⟨hname, hnames⟩ := List.forall_mem_cons.mp hnames
    obtain ⟨hmtrimmed, htrimmed⟩ := List.forall_mem_cons.mp htrimmed
    obtain ⟨s, hs, htrim⟩ := hmtrimmed.exists_string
    obtain ⟨hm, hms⟩ := List.nodup_cons.mp hdistinct
    obtain ⟨hmfree, hfree⟩ := List.forall_mem_cons.mp hfree
    have htext : cellText m.2.2 = some s := by rw [hs, cellText, htrim]
    have hrest : ∀ m' ∈ ms, Function.update text m.2.1 (some s) m'.2.1 = none := by
      intro m' hm'
      have hne : m'.2.1 ≠ m.2.1 := fun heq => hm (heq ▸ List.mem_map_of_mem (List.mem_map_of_mem hm'))
      rw [Function.update_of_ne hne]
      exact hfree m' hm'
    rw [List.map_cons, Node.ofMembers, Field.readMembers_cons, hs, Node.ofValue, readMember_ofTexts hname hmfree,
      List.map_cons, overlay_cons hm, htext]
    exact ih hnames htrimmed hms hrest

variable {headers : List String} {row : List Value} {v : Value}

theorem isTrimmed_of_mem {e : Column × Value} (htrimmed : ∀ v ∈ row, IsTrimmed v) (h : e ∈ cells headers row) :
    IsTrimmed e.2 := by
  obtain ⟨⟨header, v⟩, hp, heq⟩ := List.mem_filterMap.mp h
  obtain ⟨c, -, rfl⟩ := Option.map_eq_some_iff.mp heq
  exact htrimmed v (List.of_mem_zip hp).2

theorem RecordOf.check (h : RecordOf headers row v) (htrimmed : ∀ v ∈ row, IsTrimmed v)
    (henter : levels.enter = .ok inner) : (Node.ofValue v).check levels = .ok () := by
  cases h with
  | @intro ms hnames hcells =>
    have hmembers : Node.checkMembers inner (Node.ofMembers (ms.map fun m => (m.1, m.2.2))) = .ok () := by
      apply Node.checkMembers_of_forall
      rw [List.forall_mem_map]
      intro m hm
      obtain ⟨s, hs, -⟩ := (isTrimmed_of_mem htrimmed (hcells.mem_iff.mpr (List.mem_map_of_mem hm))).exists_string
      rw [hs]
      rfl
    simp [Node.ofValue, Node.check, henter, bind, Except.bind, hmembers]

theorem missing?_ofTexts (h : (text .testId).isSome = true) :
    Field.missing? TestCase.fields (.ofTexts text) = none := by
  simp [Field.missing?, TestCase.fields, Field.of, TestCase.Draft.ofTexts, h]

theorem isSome_of_hasId (h : hasId headers row = true) : (textUnder headers row .testId).isSome = true := by
  cases hid : textUnder headers row .testId with
  | none => simp [hasId, hid] at h
  | some id => rfl

theorem RecordOf.decoder (h : RecordOf headers row v) (hdistinct : ((cells headers row).map Prod.fst).Nodup)
    (htrimmed : ∀ v ∈ row, IsTrimmed v) (hid : hasId headers row = true) (henter : levels.enter = .ok inner) :
    TestCase.decoder levels (.ofValue v) = .ok (.ofTexts (textUnder headers row)) := by
  cases h with
  | @intro ms hnames hcells =>
    have hread : Field.readMembers TestCase.fields inner (Node.ofMembers (ms.map fun m => (m.1, m.2.2)))
        (.ofTexts fun _ => none) = .ok (.ofTexts (textUnder headers row)) := by
      rw [readMembers_ofTexts hnames _ _ fun _ _ => rfl, ← overlay_of_perm hcells hdistinct, textUnder_eq]
      · intro m hm
        exact isTrimmed_of_mem htrimmed (hcells.mem_iff.mpr (List.mem_map_of_mem hm))
      · exact (hcells.map _).nodup_iff.mp hdistinct
    change (Field.ofObject "TestCase" TestCase.fields (.ofTexts fun _ => none) levels (.ofValue (.object _))).map
      TestCase.Draft.finish = _
    rw [Node.ofValue, Field.ofObject_of_readMembers henter hread, missing?_ofTexts (isSome_of_hasId hid)]
    exact congrArg Except.ok (finish_ofTexts _)

theorem Regular.testCases_of_records {table : Table} {vs : List Value} (h : table.Regular)
    (htrimmed : ∀ row ∈ table.rows, ∀ v ∈ row, IsTrimmed v)
    (hvs : List.Forall₂ (RecordOf table.headers) (table.rows.filter (hasId table.headers)) vs)
    (henter : levels.enter = .ok inner) {inner' : Levels} (henter' : inner.enter = .ok inner') :
    TestCases.decoder levels (.ofValue (.array vs)) = .ok (.records table.testCases) := by
  apply Decoder.oneOf_list henter
  rw [h.testCases_eq_map, List.forall₂_map_right_iff]
  have hrows : ∀ row ∈ table.rows.filter (hasId table.headers), row ∈ table.rows ∧ hasId table.headers row = true :=
    fun row hrow => List.mem_filter.mp hrow
  refine (((List.forall₂_and_left _ _).mpr ⟨hrows, hvs⟩).imp ?_).flip
  rintro row v ⟨⟨hrow, hid⟩, hv⟩
  exact ⟨hv.check (htrimmed row hrow) henter',
    hv.decoder (h.distinct_cells hrow) (htrimmed row hrow) hid henter'⟩

theorem cases_of_text {vs : List Value} {source : TestCases} {document : String}
    (hsource : TestCases.decoder (some 127) (.ofValue (.array vs)) = .ok source)
    (hroot : Json.Document.ofText document = ⟨.ofValue (.object [("test_cases", .array vs)]), false⟩) :
    ∃ d, Document.ofText document = .ok d ∧ d.cases = source.toList := by
  have hread : Field.readMembers Document.fields (some 127) (Node.ofMembers [("test_cases", .array vs)]) ⟨none, none⟩ =
      .ok ⟨some source, none⟩ := by
    rw [Field.readMembers_of_field rfl rfl hsource]
    rfl
  refine ⟨⟨source, .records []⟩, ?_, rfl⟩
  simp only [Document.ofText, decodeText, hroot, textLevels, decoder_object, hread, bind, Except.bind, Except.map]
  rfl

end Records

/-- The test cases of a table are those of the rows with an id, each with the texts of the cells under its headers. They
stay the same however the table is rearranged. If no cell needs to be trimmed, they are also read of the rows with an id
as records, wherever records may stand, and so a document that has these records has them. -/
theorem testCases_of_regular {table : Table} (h : table.Regular) :
    table.testCases =
        (table.rows.filter (hasId table.headers)).map (fun row => .ofTexts (textUnder table.headers row)) ∧
      (∀ table', Relation.ReflTransGen Rearranges table table' → table'.testCases = table.testCases) ∧
      ((∀ row ∈ table.rows, ∀ v ∈ row, IsTrimmed v) → ∀ vs,
        List.Forall₂ (RecordOf table.headers) (table.rows.filter (hasId table.headers)) vs →
          (∀ levels inner inner', Levels.enter levels = .ok inner → Levels.enter inner = .ok inner' →
            TestCases.decoder levels (.ofValue (.array vs)) = .ok (.records table.testCases)) ∧
          ∀ document, Json.Document.ofText document = ⟨.ofValue (.object [("test_cases", .array vs)]), false⟩ →
            ∃ d, Document.ofText document = .ok d ∧ d.cases = table.testCases) := by
  refine ⟨h.testCases_eq_map, fun _ hsteps => (testCases_of_rearranges hsteps h).2, ?_⟩
  intro htrimmed vs hvs
  refine ⟨fun _ _ _ henter henter' => h.testCases_of_records htrimmed hvs henter henter', fun document hroot => ?_⟩
  exact cases_of_text (h.testCases_of_records htrimmed hvs rfl rfl) hroot

theorem testCases_of_regular_rows :
    let table : Table := ⟨["TC_ID", "Remark", "title"],
      [[.string "T1", .string "x", .string "First"], [.string "", .string "y", .string "Second"]]⟩
    let table' : Table := ⟨["name", " tc_id", "Remark"],
      [[.string "First", .string "T1", .string "x"], [.string "Second", .string "", .string "y"]]⟩
    let document := "\x7b\"test_cases\": [\x7b\"title\": \"First\", \"id\": \"T1\"\x7d]\x7d"
    table.testCases = [⟨"T1", "", "", none, some "First", none, none⟩] ∧ table'.testCases = table.testCases ∧
      ∃ d, Document.ofText document = .ok d ∧ d.cases = table.testCases := by
  intro table table' document
  have hregular : table.Regular := ⟨by decide, by simp [table]⟩
  obtain ⟨hcases, hrearranged, hrecords⟩ := testCases_of_regular hregular
  have hsteps : Relation.ReflTransGen Rearranges table table' := by
    have hheaders : List.Forall₂ SameHeader ["title", "TC_ID", "Remark"] ["name", " tc_id", "Remark"] :=
      .cons (.named .title (by decide) (by decide)) (.cons (.spelled (by decide)) (.cons (.spelled (by decide)) .nil))
    exact .tail (.single (@Rearranges.permute table.headers [2, 0, 1] table.rows (by decide))) (.respell _ hheaders)
  have htrimmed : ∀ row ∈ table.rows, ∀ v ∈ row, IsTrimmed v := by decide
  have hrecord : RecordOf table.headers [.string "T1", .string "x", .string "First"]
      (.object [("title", .string "First"), ("id", .string "T1")]) :=
    @RecordOf.intro _ _ [("title", .title, .string "First"), ("id", .testId, .string "T1")] (by decide) (.swap _ _ _)
  obtain ⟨-, hdocument⟩ := hrecords htrimmed _ (.cons hrecord .nil)
  exact ⟨hcases, hrearranged table' hsteps, hdocument document (by decide +kernel)⟩

theorem not_cases_eq_testCases_of_records :
    ¬∀ (table : Table) (vs : List Value) (document : String), table.Regular →
      (∀ row ∈ table.rows, ∀ v ∈ row, IsTrimmed v) → List.Forall₂ (RecordOf table.headers) table.rows vs →
      Json.Document.ofText document = ⟨.ofValue (.object [("test_cases", .array vs)]), false⟩ →
      ∃ d, Document.ofText document = .ok d ∧ d.cases = table.testCases := by
  intro h
  let table : Table := ⟨["test_id", "title"], [[.string "", .string "No id"]]⟩
  let document := "\x7b\"test_cases\": [\x7b\"test_id\": \"\", \"title\": \"No id\"\x7d]\x7d"
  have htrimmed : ∀ row ∈ table.rows, ∀ v ∈ row, IsTrimmed v := by decide
  have hrecord : RecordOf table.headers [.string "", .string "No id"]
      (.object [("test_id", .string ""), ("title", .string "No id")]) :=
    @RecordOf.intro _ _ [("test_id", .testId, .string ""), ("title", .title, .string "No id")] (by decide) (.refl _)
  obtain ⟨d, hd, hcases⟩ := h table _ document ⟨by decide, by simp [table]⟩ htrimmed (.cons hrecord .nil)
    (by decide +kernel)
  have hkept : (Document.ofText document).toOption.map (·.cases.length) = some 1 := by decide +kernel
  have hskipped : table.testCases = [] := by decide
  rw [hd] at hkept
  change some d.cases.length = some 1 at hkept
  rw [hcases, hskipped] at hkept
  cases hkept

end Table

end Applicability.Catalog
