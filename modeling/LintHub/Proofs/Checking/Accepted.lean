import LintHub.Checking.Checker
import LintHub.Proofs.Settings.Reload
import Mathlib.Data.Set.Function

/-!
# Accepted settings

* `Checker.runTool_ne_option` : with well-formed settings no run of a tool fails for its dialect.
* `Settings.Agrees` : settings are the same up to their directory.
* `Settings.fingerprint_eq_iff` : if the digest tells their texts apart, the names of well-formed settings are equal
  exactly if the settings agree.
* `Settings.parse_reload` : settings that a text holds are complete and read back from their own text, and their name
  tells them from all others.
-/

namespace LintHub

/-! ## Dialects -/

theorem Locator.locate_ne_option (l : Locator) (d : Disk) (t : Tool) (configured : Option String) (e : OptionError) :
    l.locate d t configured ≠ .error (.option e) := by
  intro h
  rw [locate] at h
  dsimp only at h
  repeat' split at h
  all_goals cases h

theorem Execution.ofOutcome_ne_option (t : Tool) (limit : Nat) (o : Outcome) (e : OptionError) :
    ofOutcome t limit o ≠ .error (.option e) := by
  intro h
  rw [ofOutcome.eq_def] at h
  repeat' split at h
  all_goals cases h

/-- With well-formed settings no run of a tool fails for its dialect. -/
theorem Checker.runTool_ne_option {c : Checker} (hc : c.settings.WellFormed) (h : Host) (d : Disk) (t : Tool)
    (path : Path) (e : OptionError) : (c.runTool h d t path).1 ≠ .error (.option e) := by
  obtain ⟨forced, hforced⟩ := hc.forcedDialect t
  have hdialect : c.dialect t = .ok (forced.or (Dialect.preferred? t)) := by rw [dialect, hforced]
  have hprogram := c.locator.locate_ne_option d t (c.settings.tool t).path e
  rw [runTool, prepare, hdialect, program]
  cases hlocate : c.locator.locate d t (c.settings.tool t).path with
  | error e' =>
    rintro heq
    cases heq
    exact hprogram hlocate
  | ok p =>
    have hrun (command : ToolCommand) (o : Outcome) := Execution.ofOutcome_ne_option command.tool (c.limit t) o e
    simp only [Host.execute]
    split
    · next e' heq => cases heq
    · next command dialect heq =>
      split
      · next e' d' hexecute =>
        rintro hoption
        cases hoption
        exact hrun _ _ (Prod.mk.inj hexecute).1
      · rintro hoption
        cases hoption

namespace Settings

/-! ## Names -/

/-- The settings are the same up to their directory. -/
def Agrees (s s' : Settings) : Prop := { s with baseDir := none } = { s' with baseDir := none }

variable {s s' : Settings}

theorem Agrees.refl (s : Settings) : s.Agrees s := Eq.refl _

theorem Agrees.symm (h : s.Agrees s') : s'.Agrees s := Eq.symm h

theorem Agrees.trans {s'' : Settings} (h : s.Agrees s') (h' : s'.Agrees s'') : s.Agrees s'' := Eq.trans h h'

/-- Settings without a directory agree only if they are the same. -/
theorem Agrees.eq (h : s.Agrees s') (hs : s.baseDir = none) (hs' : s'.baseDir = none) : s = s' := by
  have hself {x : Settings} (hx : x.baseDir = none) : { x with baseDir := none } = x := by rw [← hx]
  rw [Agrees, hself hs, hself hs'] at h
  exact h

theorem Agrees.tools (h : s.Agrees s') : s.tools = s'.tools := by
  have htools := congrArg Settings.tools h
  exact htools

theorem toJson_congr (h : s.Agrees s') : s.toJson = s'.toJson := by
  have hjson (x : Settings) : x.toJson = toJson { x with baseDir := none } := rfl
  rw [hjson s, hjson s', h]

/-- The text of well-formed settings tells them from all others. -/
theorem compact_eq_iff (hs : s.WellFormed) (hs' : s'.WellFormed) :
    s.toJson.compact = s'.toJson.compact ↔ s.Agrees s' := by
  refine ⟨fun h => ?_, fun h => by rw [toJson_congr h]⟩
  have hread := parse_compact hs
  rw [h, parse_compact hs'] at hread
  exact (Except.ok.inj hread).symm

theorem fingerprint_eq_iff (hs : s.WellFormed) (hs' : s'.WellFormed)
    (hdigest : Set.InjOn contentHash {s.toJson.compact, s'.toJson.compact}) :
    s.fingerprint = s'.fingerprint ↔ s.Agrees s' := by
  rw [← compact_eq_iff hs hs', fingerprint, fingerprint]
  exact hdigest.eq_iff (by simp) (by simp)

/-- Settings that a text holds have an entry for each tool, which may run for a second at least and whose dialect never
makes a run fail. They are read back from their own text. Whatever directory they are given, their name is that of other
accepted settings only if they are the same, unless the digest confuses their texts. -/
theorem parse_reload {text : String} (h : parse text = .ok s) :
    (∀ t : Tool, ((s.toJson.get? "tools").bind fun tools => tools.get? t.id) = some (toolJson (s.tool t)) ∧
      1 ≤ (s.tool t).timeout.toNat ∧ ∃ forced, (s.tool t).forcedDialect = .ok forced) ∧
    (∀ (c : Checker) (host : Host) (d : Disk) (t : Tool) (path : Path) (e : OptionError), c.settings.Agrees s →
      (c.runTool host d t path).1 ≠ .error (.option e)) ∧
    parse s.toJson.compact = .ok s ∧
    ∀ (text' : String) (s' : Settings) (dir dir' : Option Path), parse text' = .ok s' →
      Set.InjOn contentHash {s.toJson.compact, s'.toJson.compact} →
      ({ s with baseDir := dir }.fingerprint = { s' with baseDir := dir' }.fingerprint ↔ s = s') := by
  obtain ⟨hs, hdir⟩ := wellFormed_of_parse h
  have hself : { s with baseDir := none } = s := by rw [← hdir]
  refine ⟨fun t => ⟨get?_toolsJson s t, (hs t).timeout, hs.forcedDialect t⟩, fun c host d t path e hc => ?_,
    by rw [parse_compact hs, hself], fun text' s' dir dir' h' hdigest => ?_⟩
  · refine Checker.runTool_ne_option (fun t => ?_) host d t path e
    rw [tool, hc.tools]
    exact hs t
  · obtain ⟨hs', hdir'⟩ := wellFormed_of_parse h'
    have hiff := fingerprint_eq_iff hs hs' hdigest
    exact hiff.trans ⟨fun hagrees => hagrees.eq hdir hdir', fun heq => heq ▸ .refl s⟩

theorem parse_of_toOption {text : String} (h : (parse text).toOption = some s) : parse text = .ok s := by
  cases hparse : parse text with
  | error e =>
    rw [hparse] at h
    cases h
  | ok read =>
    rw [hparse] at h
    rw [Option.some.inj h]

/-- A commented text that sets one tool's time and dialect. -/
def sparseText : String :=
  "// columns only\n\x7btools: \x7byamllint: \x7btimeout_secs: 18446744073709551615, dialect: 'column',\x7d,\x7d,\x7d"

/-- The settings that it holds. -/
def sparseSettings : Settings :=
  let yamllint := { ToolSettings.default with timeout := 18446744073709551615, dialect := some "column" }
  { default with tools := ⟨yamllint, .default, .default⟩ }

theorem parse_reload_sparse :
    parse sparseText = .ok sparseSettings ∧ parse sparseSettings.toJson.compact = .ok sparseSettings ∧
      { sparseSettings with baseDir := some ⟨"/w"⟩ }.fingerprint = sparseSettings.fingerprint := by
  have hread : parse sparseText = .ok sparseSettings := parse_of_toOption (by decide +kernel)
  obtain ⟨-, -, hreload, hname⟩ := parse_reload hread
  have hdigest : Set.InjOn contentHash {sparseSettings.toJson.compact, sparseSettings.toJson.compact} := by simp
  exact ⟨hread, hreload, (hname sparseText sparseSettings (some ⟨"/w"⟩) none hread hdigest).2 rfl⟩

end Settings

end LintHub
