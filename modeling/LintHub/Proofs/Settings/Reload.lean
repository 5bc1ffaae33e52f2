import LintHub.Proofs.Json.Commented
import LintHub.Proofs.Json.Schema
import LintHub.Settings.Reading

/-!
# Settings are read back

* `Settings.WellFormed` : every tool may run for a second at least, and a forced dialect is one of the spellings.
* `Settings.wellFormed_of_parse` : settings that a text holds are well formed.
* `Settings.ofJson?_toJson` : the object of settings is read as the settings, up to their directory.
* `Settings.parse_compact` : so is its text, if they are well formed.
-/

namespace LintHub.Settings

variable {s : Settings}

/-! ## Well-formed settings -/

/-- The tool may run for a second at least, and a forced dialect is one of the spellings. -/
structure ToolWellFormed (t : ToolSettings) : Prop where
  timeout : 1 ≤ t.timeout.toNat
  dialect : ∀ d, t.dialect = some d → d ∈ dialectSpellings

/-- The settings of every tool are well formed. -/
def WellFormed (s : Settings) : Prop := ∀ t, ToolWellFormed (s.tool t)

theorem toolWellFormed_default : ToolWellFormed .default := ⟨by decide, fun _ hd => nomatch hd⟩

theorem wellFormed_default (t : Tool) : ToolWellFormed (default.tools.get t) := by
  rw [default, PerTool.get_ofFn]
  exact toolWellFormed_default

/-- Every spelling names a dialect. -/
theorem ofText?_of_mem_dialectSpellings : ∀ d ∈ dialectSpellings, (Dialect.ofText? d).isSome := by decide +kernel

theorem WellFormed.forcedDialect (h : s.WellFormed) (t : Tool) : ∃ forced, (s.tool t).forcedDialect = .ok forced := by
  have hspelling := (h t).dialect
  rw [ToolSettings.forcedDialect]
  cases hd : (s.tool t).dialect with
  | none => exact ⟨none, rfl⟩
  | some d =>
    obtain ⟨dialect, hdialect⟩ := Option.isSome_iff_exists.1 (ofText?_of_mem_dialectSpellings d (hspelling d hd))
    exact ⟨some dialect, by simp only [hdialect]⟩

theorem forM_eq_ok {α ε : Type} {f : α → Except ε Unit} (h : ∀ a, f a = .ok ()) (as : List α) :
    as.forM f = .ok () := by
  induction as with
  | nil => rfl
  | cons a as ih =>
    rw [List.forM_eq_forM, List.forM_cons, h, ← List.forM_eq_forM, ih]
    rfl

theorem WellFormed.checkDialects (h : s.WellFormed) : checkDialects s = .ok () := by
  refine forM_eq_ok (fun t => ?_) Tool.all
  obtain ⟨forced, hforced⟩ := h.forcedDialect t
  simp only [hforced]

/-! ## What a text holds -/

theorem one_le_of_long? {n : Number} {x : UInt64} (hone : Schema.isBelowOne n = false)
    (h : Json.long? (.num n) = some x) : 1 ≤ x.toNat := by
  cases n with
  | double d => cases h
  | whole n =>
    simp only [Schema.isBelowOne, decide_eq_false_iff_not, Int.not_lt] at hone
    rw [Json.long?, Json.asNat?, if_pos (by omega)] at h
    dsimp only at h
    split at h
    · next hn =>
      obtain rfl := Option.some.inj h
      rw [UInt64.toNat_ofNat_of_lt' hn]
      omega
    · cases h

theorem wellFormed_tool {j : Json} {t : ToolSettings} (haccepts : toolSchema.Accepts j) (h : toolOfJson? j = some t) :
    ToolWellFormed t := by
  simp only [toolOfJson?, Option.bind_eq_bind, Option.bind_eq_some_iff] at h
  obtain ⟨_, -, _, -, _, -, timeout, htimeout, _, -, dialect, hdialect, heq⟩ := h
  obtain rfl := Option.some.inj heq
  constructor
  · cases hget : j.get? "timeout_secs" with
    | none =>
      rw [hget] at htimeout
      obtain rfl := Option.some.inj htimeout
      exact toolWellFormed_default.timeout
    | some k =>
      rw [hget] at htimeout
      obtain ⟨schema, hschema, hk⟩ := haccepts.get? hget
      obtain rfl : Schema.count = schema := Option.some.inj hschema
      cases hk with
      | count hwhole hone => exact one_le_of_long? hone htimeout
  · rintro d rfl
    cases hget : j.get? "dialect" with
    | none =>
      rw [hget] at hdialect
      cases hdialect
    | some k =>
      rw [hget] at hdialect
      obtain ⟨schema, hschema, hk⟩ := haccepts.get? hget
      obtain rfl : Schema.nullableChoice dialectSpellings = schema := Option.some.inj hschema
      cases hk with
      | noChoice => cases hdialect
      | someChoice hs =>
        obtain rfl : _ = d := Option.some.inj (Option.some.inj hdialect)
        exact hs

theorem wellFormed_toolIn {tools : Json} {t : Tool} {x : ToolSettings}
    (haccepts : (Schema.object (Tool.all.map fun t => (t.id, toolSchema))).Accepts tools)
    (h : toolIn? tools t = some x) : ToolWellFormed x := by
  rw [toolIn?] at h
  cases hget : tools.get? t.id with
  | none =>
    rw [hget] at h
    obtain rfl := Option.some.inj h
    exact toolWellFormed_default
  | some k =>
    rw [hget] at h
    obtain ⟨schema, hschema, hk⟩ := haccepts.get? hget
    obtain rfl : toolSchema = schema := by cases t <;> exact Option.some.inj hschema
    exact wellFormed_tool hk h

theorem tool_of_toolsOfJson? {tools : Json} {p : PerTool ToolSettings} (h : toolsOfJson? tools = some p) (t : Tool) :
    toolIn? tools t = some (p.get t) := by
  simp only [toolsOfJson?, Option.bind_eq_bind, Option.bind_eq_some_iff] at h
  obtain ⟨y, hy, a, ha, c, hc, heq⟩ := h
  obtain rfl := Option.some.inj heq
  cases t
  · exact hy
  · exact ha
  · exact hc

theorem wellFormed_of_ofJson? {j : Json} (haccepts : schema.Accepts j) (h : ofJson? j = some s) : s.WellFormed := by
  simp only [ofJson?, Option.bind_eq_bind, Option.bind_eq_some_iff] at h
  obtain ⟨tools, htools, _, -, _, -, _, -, _, -, _, -, heq⟩ := h
  obtain rfl := Option.some.inj heq
  intro t
  cases hget : j.get? "tools" with
  | none =>
    rw [hget] at htools
    obtain rfl := Option.some.inj htools
    exact wellFormed_default t
  | some k =>
    rw [hget] at htools
    obtain ⟨schema, hschema, hk⟩ := haccepts.get? hget
    obtain rfl : Schema.object (Tool.all.map fun t => (t.id, toolSchema)) = schema := Option.some.inj hschema
    exact wellFormed_toolIn hk (tool_of_toolsOfJson? htools t)

/-- Settings are read from exactly the accepted values: the check of dialects never fails on one. -/
theorem ofValue_eq_ok_iff {j : Json} : ofValue j = .ok s ↔ schema.Accepts j ∧ ofJson? j = some s := by
  rw [← Schema.check_eq_ok_iff, ofValue]
  cases hcheck : schema.check j with
  | error v => exact ⟨fun h => (nomatch h), fun h => (nomatch h.1)⟩
  | ok _ =>
    have haccepts := Schema.check_eq_ok_iff.1 hcheck
    cases hread : ofJson? j with
    | none => exact ⟨fun h => (nomatch h), fun h => (nomatch h.2)⟩
    | some read =>
      have hdialects := (wellFormed_of_ofJson? haccepts hread).checkDialects
      simp only [hdialects]
      exact ⟨fun h => ⟨trivial, congrArg some (Except.ok.inj h)⟩, fun h => congrArg Except.ok (Option.some.inj h.2)⟩

/-- Settings that a text holds are well formed, and know no directory. -/
theorem wellFormed_of_parse {text : String} (h : parse text = .ok s) : s.WellFormed ∧ s.baseDir = none := by
  rw [parse] at h
  split at h
  · cases h
  · next j _ =>
    obtain ⟨haccepts, hread⟩ := ofValue_eq_ok_iff.1 h
    refine ⟨wellFormed_of_ofJson? haccepts hread, ?_⟩
    simp only [ofJson?, Option.bind_eq_bind, Option.bind_eq_some_iff] at hread
    obtain ⟨_, -, _, -, _, -, _, -, _, -, _, -, heq⟩ := hread
    obtain rfl := Option.some.inj heq
    rfl

/-! ## Settings as JSON -/

/-- The arguments of a tool, if there are any. -/
def argsField (args : List String) : List (String × Json) :=
  if args.isEmpty then [] else [("args", .arr (args.map .str))]

/-- The fields of a tool's settings. -/
def toolFields (t : ToolSettings) : List (String × Json) :=
  [("enabled", .bool t.enabled)] ++ Json.fieldOf "path" t.path ++ argsField t.args ++
    [("timeout_secs", .nat t.timeout.toNat)] ++ Json.fieldOf "check_group" t.group ++ Json.fieldOf "dialect" t.dialect

theorem toolJson_eq (t : ToolSettings) : toolJson t = .obj (toolFields t) := by
  obtain ⟨enabled, path, args, timeout, group, dialect⟩ := t
  cases path <;> cases group <;> cases dialect <;> rfl

theorem mem_argsField {args : List String} {field : String × Json} (h : field ∈ argsField args) :
    field = ("args", .arr (args.map .str)) := by
  cases args with
  | nil => cases h
  | cons a args => exact List.mem_singleton.1 h

theorem lookup_argsField (name : String) (args : List String) :
    Json.lookup name (argsField args) =
      if "args" = name then (if args.isEmpty then none else some (.arr (args.map .str))) else none := by
  cases args with
  | nil => simp [argsField, Json.lookup]
  | cons a args =>
    by_cases h : "args" = name
    · simp [argsField, Json.lookup, h]
    · simp [argsField, Json.lookup, h]

theorem get?_toolJson (t : ToolSettings) :
    (toolJson t).get? "enabled" = some (.bool t.enabled) ∧ (toolJson t).get? "path" = t.path.map .str ∧
      (toolJson t).get? "args" = (if t.args.isEmpty then none else some (.arr (t.args.map .str))) ∧
      (toolJson t).get? "timeout_secs" = some (.nat t.timeout.toNat) ∧
      (toolJson t).get? "check_group" = t.group.map .str ∧ (toolJson t).get? "dialect" = t.dialect.map .str := by
  simp [toolJson_eq, Json.get?, toolFields, Json.lookup_append, Json.lookup_cons, Json.lookup_fieldOf, lookup_argsField]

theorem listOf?_strings (l : List String) : Json.listOf? Json.asString? (.arr (l.map .str)) = some l :=
  Json.mapM_map_eq_some fun _ _ => rfl

theorem toolOfJson?_toolJson (t : ToolSettings) : toolOfJson? (toolJson t) = some t := by
  obtain ⟨henabled, hpath, hargs, htimeout, hgroup, hdialect⟩ := get?_toolJson t
  have hlist : Json.optional? (Json.listOf? Json.asString?) ToolSettings.default.args ((toolJson t).get? "args") =
      some t.args := by
    rw [hargs]
    split
    · next hempty => rw [List.isEmpty_iff.1 hempty]; rfl
    · exact listOf?_strings t.args
  rw [toolOfJson?, henabled, hpath, hlist, htimeout, hgroup, hdialect]
  simp only [Json.optional?, Json.asBool?, Json.nullable?_map_str, Json.long?_nat, Option.bind_eq_bind,
    Option.bind_some]

/-- The settings of all tools as an object. -/
def toolsJson (s : Settings) : Json := .obj (Tool.all.map fun t => (t.id, toolJson (s.tool t)))

theorem get?_toolsJson (s : Settings) (t : Tool) : (toolsJson s).get? t.id = some (toolJson (s.tool t)) := by
  cases t <;> rfl

theorem toolsOfJson?_toolsJson (s : Settings) : toolsOfJson? (toolsJson s) = some s.tools := by
  have htool (t : Tool) : toolIn? (toolsJson s) t = some (s.tool t) := by
    rw [toolIn?, get?_toolsJson]
    exact toolOfJson?_toolJson (s.tool t)
  rw [toolsOfJson?, htool, htool, htool]
  rfl

theorem ofJson?_toJson (s : Settings) : ofJson? s.toJson = some { s with baseDir := none } := by
  have htools : s.toJson.get? "tools" = some (toolsJson s) := rfl
  have hincluded : s.toJson.get? "include" = some (.arr (s.included.map .str)) := rfl
  have hexcluded : s.toJson.get? "exclude" = some (.arr (s.excluded.map .str)) := rfl
  have hcache : s.toJson.get? "cache" = some (.bool s.cache) := rfl
  have hcacheDir : s.toJson.get? "cache_dir" = some (.str s.cacheDir) := rfl
  have hignoreFile : s.toJson.get? "ignore_file" = some (.str s.ignoreFile) := rfl
  rw [ofJson?, htools, hincluded, hexcluded, hcache, hcacheDir, hignoreFile]
  simp only [Json.optional?, toolsOfJson?_toolsJson, listOf?_strings, Json.asBool?, Json.asString?,
    Option.bind_eq_bind, Option.bind_some]

/-! ## The canonical form -/

theorem toolOfJson?_canonical (j : Json) : toolOfJson? j.canonical = toolOfJson? j := by
  simp only [toolOfJson?, Json.get?_canonical, Json.optional?_canonical Json.asBool?_canonical,
    Json.nullable?_canonical Json.asString?_canonical, Json.optional?_canonical Json.long?_canonical,
    Json.optional?_canonical (Json.listOf?_canonical Json.asString?_canonical)]

theorem toolsOfJson?_canonical (j : Json) : toolsOfJson? j.canonical = toolsOfJson? j := by
  simp only [toolsOfJson?, toolIn?, Json.get?_canonical, Json.optional?_canonical toolOfJson?_canonical]

theorem ofJson?_canonical (j : Json) : ofJson? j.canonical = ofJson? j := by
  simp only [ofJson?, Json.get?_canonical, Json.optional?_canonical Json.asBool?_canonical,
    Json.optional?_canonical Json.asString?_canonical, Json.optional?_canonical toolsOfJson?_canonical,
    Json.optional?_canonical (Json.listOf?_canonical Json.asString?_canonical)]

/-! ## The text of settings -/

theorem accepts_strings (l : List String) : (Schema.array .string).Accepts (.arr (l.map .str)) := by
  refine .array fun j hj => ?_
  obtain ⟨s, -, rfl⟩ := List.mem_map.1 hj
  exact .string s

theorem accepts_toolJson {t : ToolSettings} (h : ToolWellFormed t) : toolSchema.Accepts (toolJson t) := by
  have hseconds : Schema.count.Accepts (.nat t.timeout.toNat) := by
    refine .count rfl ?_
    have := h.timeout
    simp only [Schema.isBelowOne, decide_eq_false_iff_not]
    omega
  rw [toolJson_eq]
  refine .object_of_forall fun field hfield => ?_
  simp only [toolFields, List.mem_append, List.mem_singleton, Json.mem_fieldOf] at hfield
  rcases hfield with ((((rfl | ⟨p, -, rfl⟩) | hargs) | rfl) | ⟨g, -, rfl⟩) | ⟨d, hd, rfl⟩
  · exact ⟨_, rfl, .boolean _⟩
  · exact ⟨_, rfl, .someString p⟩
  · obtain rfl := mem_argsField hargs
    exact ⟨_, rfl, accepts_strings t.args⟩
  · exact ⟨_, rfl, hseconds⟩
  · exact ⟨_, rfl, .someString g⟩
  · exact ⟨_, rfl, .someChoice (h.dialect d hd)⟩

theorem accepts_toJson (h : s.WellFormed) : schema.Accepts s.toJson := by
  have htools : (Schema.object (Tool.all.map fun t => (t.id, toolSchema))).Accepts (toolsJson s) := by
    refine .object_of_forall fun field hfield => ?_
    obtain ⟨t, -, rfl⟩ := List.mem_map.1 hfield
    refine ⟨toolSchema, ?_, accepts_toolJson (h t)⟩
    cases t <;> rfl
  refine .object_of_forall fun field hfield => ?_
  simp only [List.mem_cons, List.not_mem_nil, or_false] at hfield
  rcases hfield with rfl | rfl | rfl | rfl | rfl | rfl
  · exact ⟨_, rfl, htools⟩
  · exact ⟨_, rfl, accepts_strings _⟩
  · exact ⟨_, rfl, accepts_strings _⟩
  · exact ⟨_, rfl, .boolean _⟩
  · exact ⟨_, rfl, .string _⟩
  · exact ⟨_, rfl, .string _⟩

theorem fits_strings (l : List String) (depth : Nat) : Json.Fits (depth + 1) .whole (.arr (l.map .str)) := by
  refine Json.fits_arr_whole fun j hj => ?_
  obtain ⟨s, -, rfl⟩ := List.mem_map.1 hj
  exact Json.fits_str _ _ s

theorem fits_toolJson (t : ToolSettings) : Json.Fits 2 .whole (toolJson t) := by
  have hseconds := t.timeout.toNat_lt
  rw [toolJson_eq]
  refine Json.fits_obj_whole fun field hfield => ?_
  simp only [toolFields, List.mem_append, List.mem_singleton, Json.mem_fieldOf] at hfield
  rcases hfield with ((((rfl | ⟨p, -, rfl⟩) | hargs) | rfl) | ⟨g, -, rfl⟩) | ⟨d, -, rfl⟩
  · exact Json.fits_bool _ _ _
  · exact Json.fits_str _ _ p
  · obtain rfl := mem_argsField hargs
    exact fits_strings t.args 0
  · exact Json.fits_nat _ _ (by omega)
  · exact Json.fits_str _ _ g
  · exact Json.fits_str _ _ d

theorem fits_toJson (s : Settings) : Json.Fits 4 .whole s.toJson := by
  have htools : Json.Fits 3 .whole (toolsJson s) := by
    refine Json.fits_obj_whole fun field hfield => ?_
    obtain ⟨t, -, rfl⟩ := List.mem_map.1 hfield
    exact fits_toolJson (s.tool t)
  refine Json.fits_obj_whole fun field hfield => ?_
  simp only [List.mem_cons, List.not_mem_nil, or_false] at hfield
  rcases hfield with rfl | rfl | rfl | rfl | rfl | rfl
  · exact htools
  · exact fits_strings _ _
  · exact fits_strings _ _
  · exact Json.fits_bool _ _ _
  · exact Json.fits_str _ _ _
  · exact Json.fits_str _ _ _

/-- The text of well-formed settings is read as the settings, without their directory. -/
theorem parse_compact (h : s.WellFormed) : parse s.toJson.compact = .ok { s with baseDir := none } := by
  rw [parse, Json.Commented.parse?_compact (fits_toJson s)]
  exact ofValue_eq_ok_iff.2 ⟨(accepts_toJson h).canonical, by rw [ofJson?_canonical, ofJson?_toJson]⟩

end LintHub.Settings
