import LintHub.Proofs.Settings.Reload

/-!
# Which documents are settings

The schema and the readers of settings describe the same documents but for one number.

* `Settings.WholeSeconds` : the seconds of each tool, where a document sets them, are a whole number of 64 bits.
* `Settings.isSome_ofJson?_iff` : a document that the schema accepts is read exactly if its seconds are whole.
* `Settings.ofValue_cases` : what becomes of a document, by the schema and by the readers.
* `Settings.parse_eq_ok_iff_accepts` : which texts hold settings, and which are refused after the schema accepted them.
-/

namespace LintHub

/-! ## When a reader answers -/

namespace Json

variable {α : Type} {read : Json → Option α}

theorem isSome_optional?_iff {fallback : α} {o : Option Json} :
    (optional? read fallback o).isSome = true ↔ ∀ k ∈ o, (read k).isSome = true := by
  cases o <;> simp [optional?]

theorem isSome_nullable? {o : Option Json} (h : ∀ k ∈ o, k = .null ∨ (read k).isSome = true) :
    (nullable? read o).isSome = true := by
  cases o with
  | none => rfl
  | some k =>
    rcases h k rfl with rfl | hread
    · rfl
    · cases k <;> simp [nullable?, hread]

theorem isSome_listOf? {items : List Json} (h : ∀ k ∈ items, (read k).isSome = true) :
    (listOf? read (.arr items)).isSome = true := by
  rw [listOf?, asArray?, Option.bind_some]
  induction items with
  | nil => rfl
  | cons k items ih =>
    obtain ⟨hk, hitems⟩ := List.forall_mem_cons.1 h
    obtain ⟨a, ha⟩ := Option.isSome_iff_exists.1 hk
    obtain ⟨as, has⟩ := Option.isSome_iff_exists.1 (ih hitems)
    rw [List.mapM_cons, ha, has]
    rfl

/-- Only whole numbers of 64 bits are read as such. -/
theorem isSome_long?_iff {j : Json} : (long? j).isSome = true ↔ ∃ n < 2 ^ 64, j = .nat n := by
  constructor
  · intro h
    obtain ⟨x, hx⟩ := Option.isSome_iff_exists.1 h
    simp only [long?] at hx
    split at hx
    · next n hn =>
      split at hx
      · next hlt =>
        refine ⟨n, hlt, ?_⟩
        unfold asNat? at hn
        split at hn
        · next z =>
          split at hn
          · next hz =>
            obtain rfl := Option.some.inj hn
            rw [nat, Int.toNat_of_nonneg hz]
          · cases hn
        · cases hn
      · cases hx
    · cases hx
  · rintro ⟨n, hn, rfl⟩
    rw [long?, nat, asNat?, if_pos (Int.natCast_nonneg n), Int.toNat_natCast]
    dsimp only
    rw [if_pos (show n < 0x10000000000000000 from hn)]
    rfl

end Json

/-! ## What the schema says of a field -/

namespace Schema

variable {properties : List (String × Schema)} {schema : Schema} {j k : Json} {name : String}

/-- A field of an accepted object is what the schema says of its name. -/
theorem Accepts.field (h : Accepts (.object properties) j) (hname : property? properties name = some schema)
    (hk : k ∈ j.get? name) : Accepts schema k := by
  obtain ⟨known, hknown, haccepts⟩ := h.get? hk
  obtain rfl := Option.some.inj (hname.symm.trans hknown)
  exact haccepts

theorem Accepts.isSome_asBool? (h : Accepts .boolean k) : k.asBool?.isSome = true := by
  cases h
  rfl

theorem Accepts.isSome_asString? (h : Accepts .string k) : k.asString?.isSome = true := by
  cases h
  rfl

theorem Accepts.null_or_isSome_asString? (h : Accepts .nullableString k) :
    k = .null ∨ k.asString?.isSome = true := by
  cases h with
  | noString => exact .inl rfl
  | someString s => exact .inr rfl

theorem Accepts.null_or_isSome_choice {choices : List String} (h : Accepts (.nullableChoice choices) k) :
    k = .null ∨ k.asString?.isSome = true := by
  cases h with
  | noChoice => exact .inl rfl
  | someChoice hs => exact .inr rfl

theorem Accepts.isSome_strings (h : Accepts (.array .string) k) : (Json.listOf? Json.asString? k).isSome = true := by
  cases h with
  | array hitems => exact Json.isSome_listOf? fun item hitem => (hitems item hitem).isSome_asString?

end Schema

namespace Settings

/-! ## Reading what the schema accepts -/

/-- The seconds that a document sets for a tool. -/
def seconds? (j : Json) (t : Tool) : Option Json :=
  ((j.get? "tools").bind (Json.get? t.id)).bind (Json.get? "timeout_secs")

/-- The seconds of each tool, where the document sets them, are a whole number of 64 bits. -/
def WholeSeconds (j : Json) : Prop := ∀ t, ∀ k ∈ seconds? j t, ∃ n < 2 ^ 64, k = .nat n

theorem isSome_toolOfJson?_iff {j : Json} (h : toolSchema.Accepts j) :
    (toolOfJson? j).isSome = true ↔ ∀ k ∈ j.get? "timeout_secs", ∃ n < 2 ^ 64, k = .nat n := by
  have henabled : (Json.optional? Json.asBool? ToolSettings.default.enabled (j.get? "enabled")).isSome = true :=
    Json.isSome_optional?_iff.2 fun k hk => (h.field rfl hk).isSome_asBool?
  have hpath : (Json.nullable? Json.asString? (j.get? "path")).isSome = true :=
    Json.isSome_nullable? fun k hk => (h.field rfl hk).null_or_isSome_asString?
  have hargs : (Json.optional? (Json.listOf? Json.asString?) ToolSettings.default.args (j.get? "args")).isSome = true :=
    Json.isSome_optional?_iff.2 fun k hk => (h.field rfl hk).isSome_strings
  have hgroup : (Json.nullable? Json.asString? (j.get? "check_group")).isSome = true :=
    Json.isSome_nullable? fun k hk => (h.field rfl hk).null_or_isSome_asString?
  have hdialect : (Json.nullable? Json.asString? (j.get? "dialect")).isSome = true :=
    Json.isSome_nullable? fun k hk => (h.field rfl hk).null_or_isSome_choice
  obtain ⟨enabled, henabled⟩ := Option.isSome_iff_exists.1 henabled
  obtain ⟨path, hpath⟩ := Option.isSome_iff_exists.1 hpath
  obtain ⟨args, hargs⟩ := Option.isSome_iff_exists.1 hargs
  obtain ⟨group, hgroup⟩ := Option.isSome_iff_exists.1 hgroup
  obtain ⟨dialect, hdialect⟩ := Option.isSome_iff_exists.1 hdialect
  -- The other fields are read, so that only the seconds decide.
  have hseconds : (toolOfJson? j).isSome =
      (Json.optional? Json.long? ToolSettings.default.timeout (j.get? "timeout_secs")).isSome := by
    simp only [toolOfJson?, henabled, hpath, hargs, hgroup, hdialect, Option.bind_eq_bind, Option.bind_some]
    cases Json.optional? Json.long? ToolSettings.default.timeout (j.get? "timeout_secs") <;> rfl
  rw [hseconds, Json.isSome_optional?_iff]
  simp only [Json.isSome_long?_iff]

theorem isSome_toolsOfJson?_iff {tools : Json} :
    (toolsOfJson? tools).isSome = true ↔ ∀ t : Tool, ∀ k ∈ tools.get? t.id, (toolOfJson? k).isSome = true := by
  have hall : (toolsOfJson? tools).isSome = true ↔ ∀ t, (toolIn? tools t).isSome = true := by
    constructor
    · intro h t
      obtain ⟨all, hread⟩ := Option.isSome_iff_exists.1 h
      simp only [toolsOfJson?, Option.bind_eq_bind, Option.bind_eq_some_iff] at hread
      obtain ⟨y, hy, a, ha, p, hp, -⟩ := hread
      cases t with
      | yamllint => exact Option.isSome_of_eq_some hy
      | ansibleLint => exact Option.isSome_of_eq_some ha
      | preCommit => exact Option.isSome_of_eq_some hp
    · intro h
      obtain ⟨y, hy⟩ := Option.isSome_iff_exists.1 (h .yamllint)
      obtain ⟨a, ha⟩ := Option.isSome_iff_exists.1 (h .ansibleLint)
      obtain ⟨p, hp⟩ := Option.isSome_iff_exists.1 (h .preCommit)
      rw [toolsOfJson?, hy, ha, hp]
      rfl
  rw [hall]
  simp only [toolIn?, Json.isSome_optional?_iff]

/-- A document that the schema accepts is read exactly if its seconds are whole. -/
theorem isSome_ofJson?_iff {j : Json} (h : schema.Accepts j) : (ofJson? j).isSome = true ↔ WholeSeconds j := by
  have hincluded : (Json.optional? (Json.listOf? Json.asString?) default.included (j.get? "include")).isSome = true :=
    Json.isSome_optional?_iff.2 fun k hk => (h.field rfl hk).isSome_strings
  have hexcluded : (Json.optional? (Json.listOf? Json.asString?) default.excluded (j.get? "exclude")).isSome = true :=
    Json.isSome_optional?_iff.2 fun k hk => (h.field rfl hk).isSome_strings
  have hcache : (Json.optional? Json.asBool? default.cache (j.get? "cache")).isSome = true :=
    Json.isSome_optional?_iff.2 fun k hk => (h.field rfl hk).isSome_asBool?
  have hcacheDir : (Json.optional? Json.asString? default.cacheDir (j.get? "cache_dir")).isSome = true :=
    Json.isSome_optional?_iff.2 fun k hk => (h.field rfl hk).isSome_asString?
  have hignoreFile : (Json.optional? Json.asString? default.ignoreFile (j.get? "ignore_file")).isSome = true :=
    Json.isSome_optional?_iff.2 fun k hk => (h.field rfl hk).isSome_asString?
  obtain ⟨included, hincluded⟩ := Option.isSome_iff_exists.1 hincluded
  obtain ⟨excluded, hexcluded⟩ := Option.isSome_iff_exists.1 hexcluded
  obtain ⟨cache, hcache⟩ := Option.isSome_iff_exists.1 hcache
  obtain ⟨cacheDir, hcacheDir⟩ := Option.isSome_iff_exists.1 hcacheDir
  obtain ⟨ignoreFile, hignoreFile⟩ := Option.isSome_iff_exists.1 hignoreFile
  have htools : (ofJson? j).isSome = (Json.optional? toolsOfJson? default.tools (j.get? "tools")).isSome := by
    simp only [ofJson?, hincluded, hexcluded, hcache, hcacheDir, hignoreFile, Option.bind_eq_bind, Option.bind_some]
    cases Json.optional? toolsOfJson? default.tools (j.get? "tools") <;> rfl
  rw [htools, Json.isSome_optional?_iff]
  have htool {tools : Json} (htools : tools ∈ j.get? "tools") {t : Tool} {k : Json} (hk : k ∈ tools.get? t.id) :
      toolSchema.Accepts k := by
    have hproperty : Schema.property? (Tool.all.map fun t => (t.id, toolSchema)) t.id = some toolSchema := by
      cases t <;> rfl
    exact (h.field rfl htools).field hproperty hk
  constructor
  · intro hread t k hk
    obtain ⟨tool, htoolOf, hk⟩ := Option.bind_eq_some_iff.1 hk
    obtain ⟨tools, htools, htoolOf⟩ := Option.bind_eq_some_iff.1 htoolOf
    have hsome := isSome_toolsOfJson?_iff.1 (hread tools htools) t tool htoolOf
    exact (isSome_toolOfJson?_iff (htool htools htoolOf)).1 hsome k hk
  · intro hwhole tools htools
    refine isSome_toolsOfJson?_iff.2 fun t tool htoolOf => (isSome_toolOfJson?_iff (htool htools htoolOf)).2 ?_
    intro k hk
    exact hwhole t k (Option.bind_eq_some_iff.2 ⟨tool, Option.bind_eq_some_iff.2 ⟨tools, htools, htoolOf⟩, hk⟩)

/-! ## What becomes of a document -/

/-- A document breaks the schema, or it is accepted and not read, or it holds settings. -/
theorem ofValue_cases (j : Json) :
    (¬ schema.Accepts j ∧ ∃ v, ofValue j = .error (.violation v)) ∨
      (schema.Accepts j ∧ ofJson? j = none ∧ ofValue j = .error .notSettings) ∨
      (schema.Accepts j ∧ ∃ s, ofJson? j = some s ∧ ofValue j = .ok s) := by
  cases hcheck : schema.check j with
  | error v =>
    refine .inl ⟨fun haccepts => ?_, v, by rw [ofValue, hcheck]; rfl⟩
    rw [Schema.check_eq_ok_iff.2 haccepts] at hcheck
    cases hcheck
  | ok _ =>
    have haccepts := Schema.check_eq_ok_iff.1 hcheck
    cases hread : ofJson? j with
    | none => exact .inr (.inl ⟨haccepts, rfl, by rw [ofValue, hcheck, hread]; rfl⟩)
    | some s => exact .inr (.inr ⟨haccepts, s, rfl, ofValue_eq_ok_iff.2 ⟨haccepts, hread⟩⟩)

theorem ofValue_eq_notSettings_iff {j : Json} :
    ofValue j = .error .notSettings ↔ schema.Accepts j ∧ ¬ WholeSeconds j := by
  rcases ofValue_cases j with ⟨hno, v, hv⟩ | ⟨haccepts, hread, hnot⟩ | ⟨haccepts, s, hread, hok⟩
  · rw [hv]
    exact ⟨fun h => (nomatch h), fun h => absurd h.1 hno⟩
  · rw [hnot, ← isSome_ofJson?_iff haccepts, hread]
    simp [haccepts]
  · rw [hok, ← isSome_ofJson?_iff haccepts, hread]
    simp

theorem exists_ofValue_eq_ok_iff {j : Json} : (∃ s, ofValue j = .ok s) ↔ schema.Accepts j ∧ WholeSeconds j := by
  simp only [ofValue_eq_ok_iff, exists_and_left, ← Option.isSome_iff_exists]
  exact and_congr_right isSome_ofJson?_iff

theorem ofValue_ne_unknownDialect (j : Json) (word : String) : ofValue j ≠ .error (.unknownDialect word) := by
  rcases ofValue_cases j with ⟨-, v, hv⟩ | ⟨-, -, hnot⟩ | ⟨-, s, -, hok⟩
  · simp [hv]
  · simp [hnot]
  · simp [hok]

theorem exists_parse_eq_ok_iff {text : String} :
    (∃ s, parse text = .ok s) ↔ ∃ j, Json.Commented.parse? text = some j ∧ schema.Accepts j ∧ WholeSeconds j := by
  rw [parse]
  cases Json.Commented.parse? text with
  | none => simp
  | some j => simpa only [Option.some.injEq, exists_eq_left'] using exists_ofValue_eq_ok_iff

theorem parse_eq_notSettings_iff {text : String} :
    parse text = .error .notSettings ↔
      ∃ j, Json.Commented.parse? text = some j ∧ schema.Accepts j ∧ ¬ WholeSeconds j := by
  rw [parse]
  cases Json.Commented.parse? text with
  | none => simp
  | some j => simpa only [Option.some.injEq, exists_eq_left'] using ofValue_eq_notSettings_iff

theorem parse_ne_unknownDialect (text word : String) : parse text ≠ .error (.unknownDialect word) := by
  rw [parse]
  cases Json.Commented.parse? text with
  | none => simp
  | some j => exact ofValue_ne_unknownDialect j word

/-- A text holds settings exactly if the schema accepts its value and the seconds of each tool are a whole number of 64
bits. With other seconds that the schema accepts, which have a point or an exponent or do not fit, it is refused; it
never is for a dialect. -/
theorem parse_eq_ok_iff_accepts (text : String) :
    ((∃ s, parse text = .ok s) ↔
      ∃ j, Json.Commented.parse? text = some j ∧ schema.Accepts j ∧ WholeSeconds j) ∧
    (parse text = .error .notSettings ↔
      ∃ j, Json.Commented.parse? text = some j ∧ schema.Accepts j ∧ ¬ WholeSeconds j) ∧
    ∀ word, parse text ≠ .error (.unknownDialect word) :=
  ⟨exists_parse_eq_ok_iff, parse_eq_notSettings_iff, parse_ne_unknownDialect text⟩

/-- Half a minute, written with a point. -/
def pointText : String := "\x7b\"tools\": \x7b\"yamllint\": \x7b\"timeout_secs\": 30.0\x7d\x7d\x7d"

/-- A number with a point may be whole for the schema, and is none for the reader. -/
theorem parse_refuses_pointText :
    (∃ j, Json.Commented.parse? pointText = some j ∧ schema.Accepts j) ∧ ¬ ∃ s, parse pointText = .ok s := by
  have hfault : (match parse pointText with
      | .error .notSettings => true
      | _ => false) = true := by decide +kernel
  split at hfault
  · next hparse =>
    obtain ⟨j, hj, haccepts, -⟩ := parse_eq_notSettings_iff.1 hparse
    refine ⟨⟨j, hj, haccepts⟩, ?_⟩
    rintro ⟨s, hs⟩
    rw [hparse] at hs
    cases hs
  · cases hfault

end Settings

end LintHub
