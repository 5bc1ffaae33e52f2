import LintHub.Proofs.Report.Interchange
import LintHub.Proofs.Table
import Mathlib.Data.List.Dedup

/-!
# The table of rules

The interchange document has a table of the rules that its results name.

* `Sarif.ruleId_eq_iff` : an identifier tells the tool and the rule.
* `Sarif.insertRule_eq` : a rule that stands in a sorted table already leaves it alone, another one is inserted.
* `Sarif.get?_rules` : the row of an identifier describes the first finding with it.
* `Sarif.Descriptor`, `Sarif.descriptors?`, `Sarif.ruleIds?` : what is read from a document.
* `Sarif.ruleTable_exact` : the table in the document that is written.
-/

namespace LintHub.Sarif

variable {f g : Finding} {results : List FileResult}

/-! ## Identifiers -/

theorem slash_notMem_id (t : Tool) : '/' ∉ t.id.toList := by cases t <;> decide

theorem id_inj {t u : Tool} (h : t.id = u.id) : t = u := by cases t <;> cases u <;> simp_all [Tool.id]

/-- The identifier of a rule of a tool. -/
def idOf (rule : Tool × String) : String := rule.1.id ++ "/" ++ rule.2

/-- No name of a tool has a slash, so that the first one of an identifier ends it. -/
theorem idOf_injective : Function.Injective idOf := by
  rintro ⟨t, r⟩ ⟨u, s⟩ h
  have hlist : t.id.toList ++ '/' :: r.toList = u.id.toList ++ '/' :: s.toList := by
    have := congrArg String.toList h
    simpa [idOf] using this
  obtain ⟨htool, hrule⟩ := Text.eq_of_append_notMem (slash_notMem_id t) (slash_notMem_id u) hlist
  rw [id_inj (String.toList_inj.1 htool), String.toList_inj.1 hrule]

theorem ruleId_eq_iff : ruleId f = ruleId g ↔ f.tool = g.tool ∧ f.rule = g.rule := by
  rw [← Prod.mk.injEq]
  exact idOf_injective.eq_iff (a := (f.tool, f.rule)) (b := (g.tool, g.rule))

/-! ## Rows -/

theorem insertRule_eq {table : Table Json} (h : table.Sorted) (f : Finding) :
    insertRule f table =
      if (table.get? (ruleId f)).isSome then table else table.insert (ruleId f) (descriptor f) := by
  induction table with
  | nil => rfl
  | cons head rest ih =>
    have hrest := ih (List.pairwise_cons.1 h).2
    unfold insertRule Table.insert
    cases hcompare : compare (ruleId f) head.1 with
    | lt =>
      rw [h.get?_eq_none hcompare]
      rfl
    | eq =>
      rw [Table.get?_cons, if_pos (Std.LawfulEqOrd.eq_of_compare hcompare)]
      rfl
    | gt =>
      have hne : ruleId f ≠ head.1 := Table.ne_of_compare (by rw [hcompare]; decide)
      rw [Table.get?_cons, if_neg hne, ← apply_ite (List.cons head)]
      exact congrArg (List.cons head) hrest

theorem sorted_insertRule {table : Table Json} (h : table.Sorted) (f : Finding) :
    Table.Sorted (insertRule f table) := by
  rw [insertRule_eq h]
  split
  · exact h
  · exact h.insert _ _

theorem get?_insertRule {table : Table Json} (h : table.Sorted) (f : Finding) (id : String) :
    Table.get? (insertRule f table) id =
      (table.get? id).or (if ruleId f = id then some (descriptor f) else none) := by
  rw [insertRule_eq h]
  by_cases hid : ruleId f = id
  · subst hid
    cases hrow : table.get? (ruleId f) with
    | some row => simp [hrow]
    | none => simp [Table.get?_insert]
  · rw [if_neg hid, Option.or_none]
    split
    · rfl
    · rw [Table.get?_insert, if_neg (Ne.symm hid)]

theorem sorted_foldl_insertRule (fs : List Finding) {table : Table Json} (h : table.Sorted) :
    Table.Sorted (fs.foldl (fun table f => insertRule f table) table) := by
  induction fs generalizing table with
  | nil => exact h
  | cons f fs ih => exact ih (sorted_insertRule h f)

/-- A row that stands in the table stays, and else the first finding with the identifier brings one. -/
theorem get?_foldl_insertRule (fs : List Finding) {table : Table Json} (h : table.Sorted) (id : String) :
    Table.get? (fs.foldl (fun table f => insertRule f table) table) id =
      (table.get? id).or ((fs.find? fun f => ruleId f = id).map descriptor) := by
  induction fs generalizing table with
  | nil => simp
  | cons f fs ih =>
    rw [List.foldl_cons, ih (sorted_insertRule h f), get?_insertRule h, Option.or_assoc, List.find?_cons]
    by_cases hid : ruleId f = id <;> simp [hid]

theorem sorted_rules (results : List FileResult) : Table.Sorted (rules results) :=
  sorted_foldl_insertRule _ .nil

theorem get?_rules (results : List FileResult) (id : String) :
    Table.get? (rules results) id = ((findingsIn results).find? fun f => ruleId f = id).map descriptor :=
  get?_foldl_insertRule _ .nil id

/-! ## First findings -/

/-- The first finding of each rule, in the order of the table. -/
def firsts (results : List FileResult) : List Finding :=
  (rules results).filterMap fun row => (findingsIn results).find? fun f => ruleId f = row.1

theorem mem_firsts_iff : f ∈ firsts results ↔ (findingsIn results).find? (fun g => ruleId g = ruleId f) = some f := by
  rw [firsts, List.mem_filterMap]
  constructor
  · rintro ⟨row, -, hfirst⟩
    have hid : ruleId f = row.1 := by simpa using List.find?_some hfirst
    rwa [hid]
  · intro hfirst
    have hrow : Table.get? (rules results) (ruleId f) = some (descriptor f) := by
      rw [get?_rules, hfirst]
      rfl
    exact ⟨_, Table.mem_of_get? hrow, hfirst⟩

/-- The first finding of a rule of a tool. -/
def firstOf? (fs : List Finding) (tool : Tool) (rule : String) : Option Finding :=
  fs.find? fun f => f.tool = tool ∧ f.rule = rule

theorem mem_firsts_iff_firstOf? :
    f ∈ firsts results ↔ ∃ tool rule, firstOf? (findingsIn results) tool rule = some f := by
  have hsame : firstOf? (findingsIn results) f.tool f.rule =
      (findingsIn results).find? fun g => ruleId g = ruleId f := by
    simp only [firstOf?, ruleId_eq_iff]
  rw [mem_firsts_iff, ← hsame]
  constructor
  · exact fun h => ⟨f.tool, f.rule, h⟩
  · rintro ⟨tool, rule, h⟩
    obtain ⟨rfl, rfl⟩ : f.tool = tool ∧ f.rule = rule := by simpa using List.find?_some h
    exact h

/-- Each row is that of the first finding with its identifier. -/
theorem rules_eq (results : List FileResult) :
    rules results = (firsts results).map fun f => (ruleId f, descriptor f) := by
  rw [firsts, List.map_filterMap]
  conv_lhs => rw [← List.filterMap_some (l := rules results)]
  apply List.filterMap_congr
  intro row hrow
  have hget := (sorted_rules results).get?_of_mem hrow
  rw [get?_rules] at hget
  obtain ⟨f, hfirst, hdescriptor⟩ := Option.map_eq_some_iff.1 hget
  have hid : ruleId f = row.1 := by simpa using List.find?_some hfirst
  rw [hfirst, Option.map_some, hid, hdescriptor]

theorem increasing_firsts (results : List FileResult) :
    (firsts results).Pairwise fun f g => compare (ruleId f) (ruleId g) = .lt := by
  have h := sorted_rules results
  rw [rules_eq] at h
  exact List.pairwise_map.1 h

theorem mem_ids_firsts_iff {id : String} :
    id ∈ (firsts results).map ruleId ↔ id ∈ (findingsIn results).map ruleId := by
  simp only [List.mem_map, mem_firsts_iff]
  constructor
  · rintro ⟨f, hfirst, rfl⟩
    exact ⟨f, List.mem_of_find?_eq_some hfirst, rfl⟩
  · rintro ⟨f, hf, rfl⟩
    obtain ⟨g, hg⟩ : ∃ g, (findingsIn results).find? (fun g => ruleId g = ruleId f) = some g :=
      Option.isSome_iff_exists.1 (List.find?_isSome.2 ⟨f, hf, by simp⟩)
    have hid : ruleId g = ruleId f := by simpa using List.find?_some hg
    exact ⟨g, hid ▸ hg, hid⟩

/-- There is one row for each rule of a tool. -/
theorem length_firsts (results : List FileResult) :
    (firsts results).length = ((findingsIn results).map fun f => (f.tool, f.rule)).dedup.length := by
  have hnodup : ((firsts results).map ruleId).Nodup :=
    List.pairwise_map.2 ((increasing_firsts results).imp fun h => Table.ne_of_compare (by rw [h]; decide))
  have hpairs : (((findingsIn results).map fun f => (f.tool, f.rule)).dedup.map idOf).Nodup :=
    (List.nodup_dedup _).map idOf_injective
  have hperm : ((firsts results).map ruleId).Perm
      (((findingsIn results).map fun f => (f.tool, f.rule)).dedup.map idOf) := by
    refine (List.perm_ext_iff_of_nodup hnodup hpairs).2 fun id => ?_
    rw [mem_ids_firsts_iff]
    simp [ruleId, idOf]
  simpa using hperm.length_eq

/-! ## Reading the document -/

/-- What a row of the table says of a rule. -/
structure Descriptor where
  id : String
  name : String
  description : String
  page : Option String
deriving DecidableEq

/-- What the table says of the rule of a finding. -/
def Descriptor.of (f : Finding) : Descriptor := ⟨ruleId f, f.rule, f.message, f.page⟩

/-- The descriptor that a value of the document is. -/
def Descriptor.ofJson? (j : Json) : Option Descriptor := do
  let id ← j.stringField? "id"
  let name ← j.stringField? "name"
  let description ← (← j.get? "shortDescription").stringField? "text"
  some { id, name, description, page := j.stringField? "helpUri" }

/-- The driver of a document's run. -/
def driver? (document : Json) : Option Json := do
  (← (← first? "runs" document).get? "tool").get? "driver"

/-- The rows of a driver's table. A driver without a table has none. -/
def descriptors? (driver : Json) : Option (List Descriptor) :=
  match driver.get? "rules" with
  | none => some []
  | some table => Json.listOf? Descriptor.ofJson? table

/-- The identifiers that the results of a document's run name. -/
def ruleIds? (document : Json) : Option (List String) := do
  Json.listOf? (Json.stringField? "ruleId") (← (← first? "runs" document).get? "results")

theorem ofJson?_descriptor (f : Finding) : Descriptor.ofJson? (descriptor f) = some (Descriptor.of f) := by
  cases hpage : f.page with
  | none => simp [Descriptor.ofJson?, descriptor, message, Json.get?, Json.lookup, Json.stringField?, Json.asString?,
      Json.fieldOf, hpage, Descriptor.of]
  | some page => simp [Descriptor.ofJson?, descriptor, message, Json.get?, Json.lookup, Json.stringField?,
      Json.asString?, Json.fieldOf, hpage, Descriptor.of]

theorem firsts_eq_nil_iff (results : List FileResult) : firsts results = [] ↔ findingsIn results = [] := by
  rw [← List.map_eq_nil_iff (f := ruleId), ← List.map_eq_nil_iff (f := ruleId) (l := findingsIn results),
    List.eq_nil_iff_forall_not_mem, List.eq_nil_iff_forall_not_mem]
  simp only [mem_ids_firsts_iff]

theorem driver?_log (results : List FileResult) :
    driver? (log results) = some (.obj ([("name", .str Program.name), ("version", .str Program.version)] ++
      if firsts results = [] then [] else [("rules", .arr ((firsts results).map descriptor))])) := by
  simp [driver?, first?, log, Json.get?, Json.lookup, Json.asArray?, rules_eq, Function.comp_def]

/-- A driver has a table just if there are first findings, and its rows are theirs. -/
theorem exists_driver?_log (results : List FileResult) :
    ∃ driver, driver? (log results) = some driver ∧ (driver.get? "rules" = none ↔ firsts results = []) ∧
      descriptors? driver = some ((firsts results).map Descriptor.of) := by
  refine ⟨_, driver?_log results, ?_⟩
  by_cases hnone : firsts results = []
  · simp [hnone, descriptors?, Json.get?, Json.lookup]
  · have htable : Json.listOf? Descriptor.ofJson? (.arr ((firsts results).map descriptor)) =
        some ((firsts results).map Descriptor.of) :=
      Json.mapM_map_eq_map fun f _ => ofJson?_descriptor f
    rw [if_neg hnone]
    simp [hnone, descriptors?, Json.get?, Json.lookup, htable]

theorem ruleIds?_log (results : List FileResult) : ruleIds? (log results) = some ((findingsIn results).map ruleId) := by
  have hread : Json.listOf? (Json.stringField? "ruleId")
      (.arr (results.flatMap fun r => r.findings.map (result r.path))) =
        some ((checked results).map fun row => ruleId row.2) := by
    rw [flatMap_result]
    exact Json.mapM_map_eq_map fun row _ => by
      simp [result, Json.stringField?, Json.get?, Json.lookup, Json.asString?]
  rw [← map_snd_checked, List.map_map]
  simp [ruleIds?, first?, log, Json.get?, Json.lookup, Json.asArray?, hread, Function.comp_def]

/-- The document has a table of rules unless nothing was found. Its identifiers increase strictly; its rows are those of
the first findings of each rule of a tool, one for each, and no two rules share an identifier. Every result names a rule
of the table. -/
theorem ruleTable_exact (results : List FileResult) :
    ∃ document driver rows, Json.parse? (render results) = some document ∧ driver? document = some driver ∧
      descriptors? driver = some rows ∧
      (driver.get? "rules" = none ↔ findingsIn results = []) ∧
      rows.Pairwise (fun a b => compare a.id b.id = .lt) ∧
      (∀ row, row ∈ rows ↔
        ∃ tool rule f, firstOf? (findingsIn results) tool rule = some f ∧ row = Descriptor.of f) ∧
      rows.length = ((findingsIn results).map fun f => (f.tool, f.rule)).dedup.length ∧
      (∀ f g : Finding, ruleId f = ruleId g ↔ f.tool = g.tool ∧ f.rule = g.rule) ∧
      ruleIds? document = some ((findingsIn results).map ruleId) ∧
      ∀ id ∈ (findingsIn results).map ruleId, ∃ row ∈ rows, row.id = id := by
  obtain ⟨driver, hdriver, htable, hrows⟩ := exists_driver?_log results
  refine ⟨log results, driver, _, parse?_render results, hdriver, hrows, htable.trans (firsts_eq_nil_iff results),
    List.pairwise_map.2 (increasing_firsts results), fun row => ?_, ?_, fun f g => ruleId_eq_iff, ruleIds?_log results,
    fun id hid => ?_⟩
  · rw [List.mem_map]
    constructor
    · rintro ⟨f, hf, rfl⟩
      obtain ⟨tool, rule, hfirst⟩ := mem_firsts_iff_firstOf?.1 hf
      exact ⟨tool, rule, f, hfirst, rfl⟩
    · rintro ⟨tool, rule, f, hfirst, rfl⟩
      exact ⟨f, mem_firsts_iff_firstOf?.2 ⟨tool, rule, hfirst⟩, rfl⟩
  · rw [List.length_map, length_firsts]
  · rw [← mem_ids_firsts_iff] at hid
    obtain ⟨f, hf, rfl⟩ := List.mem_map.1 hid
    exact ⟨Descriptor.of f, List.mem_map_of_mem hf, rfl⟩

end LintHub.Sarif
