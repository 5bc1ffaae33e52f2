import LintHub.Proofs.Finding.Sound
import LintHub.Proofs.Report.Printed
import Mathlib.Data.List.Chain

/-!
# Printed entries are read back

A tool prints an entry on a line, as `path:line:column: [rule] message` or `path:line:column: [level] message (rule)`.

* `Columns.Entry` : what is printed, `Columns.Entry.text` : the line, `Columns.Entry.finding` : what the line says.
* `Columns.entry?_printed` : where the line is cut, whatever the message is.
* `Columns.findings_printed_entries` : a report of such lines is read as the findings that they say, in their order.
-/

namespace LintHub.Columns

open Text (IsPhrase Tight isBlank)

/-! ## Entries -/

/-- What stands in the brackets: the rule, or a level. With a level, the rule follows the message in parentheses. -/
inductive EntryForm where
  | ruled
  | leveled (severity : Severity) (level : String)
deriving DecidableEq

/-- What a tool prints on a line about a place. -/
structure Entry where
  path : String
  line : Nat
  column : Nat
  rule : String
  message : String
  form : EntryForm
deriving DecidableEq

namespace Entry

/-- What stands in the brackets. -/
def token (e : Entry) : String :=
  match e.form with
  | .ruled => e.rule
  | .leveled _ level => level

/-- What stands after the brackets. -/
def body (e : Entry) : String :=
  match e.form with
  | .ruled => e.message
  | .leveled _ _ => e.message ++ " (" ++ e.rule ++ ")"

/-- The severity that the form says. -/
def severity (e : Entry) : Severity :=
  match e.form with
  | .ruled => .warning
  | .leveled severity _ => severity

/-- The line. -/
def text (e : Entry) : String :=
  e.path ++ ":" ++ toString e.line ++ ":" ++ toString e.column ++ ": [" ++ e.token ++ "] " ++ e.body

/-- The finding that the line says. -/
def finding (root : Path) (tool : Tool) (e : Entry) : Finding :=
  { Finding.new (root.resolve e.path) e.rule e.message tool with
    line := Finding.placeOf e.line, column := Finding.placeOf e.column, severity := e.severity }

/-- What a rule may be in each form. In brackets it is a phrase that is no level and in which no blank follows a closing
bracket; in parentheses it has the characters of rules only, and the level is that of the severity in any case. -/
def Fits (e : Entry) : Prop :=
  match e.form with
  | .ruled => IsPhrase e.rule ∧ e.rule.toList.IsChain (fun a b => a = ']' → isBlank b = false) ∧
      String.ofList (Text.lowerAscii e.rule.toList) ∉ ["error", "warning"]
  | .leveled severity level => e.rule ≠ "" ∧ e.rule.toList.all isTypedRuleChar = true ∧
      String.ofList (Text.lowerAscii level.toList) = severity.name ∧ (severity = .error ∨ severity = .warning)

/-- What an entry may be: the path has no colon, the message is any phrase. -/
structure Valid (e : Entry) : Prop where
  path : IsPhrase e.path
  colon : ':' ∉ e.path.toList
  message : IsPhrase e.message
  fits : e.Fits

instance : (e : Entry) → Decidable e.Fits
  | ⟨_, _, _, rule, _, .ruled⟩ => inferInstanceAs (Decidable (IsPhrase rule ∧
      rule.toList.IsChain (fun a b => a = ']' → isBlank b = false) ∧
      String.ofList (Text.lowerAscii rule.toList) ∉ ["error", "warning"]))
  | ⟨_, _, _, rule, _, .leveled severity level⟩ => inferInstanceAs (Decidable (rule ≠ "" ∧
      rule.toList.all isTypedRuleChar = true ∧
      String.ofList (Text.lowerAscii level.toList) = severity.name ∧ (severity = .error ∨ severity = .warning)))

instance (e : Entry) : Decidable e.Valid :=
  decidable_of_iff (IsPhrase e.path ∧ ':' ∉ e.path.toList ∧ IsPhrase e.message ∧ e.Fits)
    ⟨fun h => ⟨h.1, h.2.1, h.2.2.1, h.2.2.2⟩, fun h => ⟨h.path, h.colon, h.message, h.fits⟩⟩

theorem toList_text (e : Entry) :
    e.text.toList = e.path.toList ++ ':' :: (Nat.toDigits 10 e.line ++ ':' :: (Nat.toDigits 10 e.column ++
      ':' :: ' ' :: '[' :: (e.token.toList ++ ']' :: ' ' :: e.body.toList))) := by
  simp [text]

end Entry

/-! ## Cutting a line -/

theorem afterToken?_printed {body : List Char} (h : ∀ c ∈ body.head?, isBlank c = false) :
    afterToken? (']' :: ' ' :: body) = some body := by
  have hblank : isBlank ' ' = true := by decide
  rw [afterToken?, if_pos hblank, Text.trimStart_eq_self h]

theorem afterToken?_eq_none {token rest : List Char} (hne : token ≠ [])
    (hclosed : token.IsChain fun a b => a = ']' → isBlank b = false) : afterToken? (token ++ ']' :: rest) = none := by
  -- A bracket inside of the token is followed by another character of it or by the closing bracket.
  unfold afterToken?
  split
  · next c rest' heq =>
    have hc : isBlank c = false := by
      cases token with
      | nil => exact absurd rfl hne
      | cons a token =>
        obtain ⟨rfl, htail⟩ := List.cons.inj heq
        cases token with
        | nil =>
          obtain ⟨rfl, -⟩ := List.cons.inj htail
          decide
        | cons b token =>
          obtain ⟨rfl, -⟩ := List.cons.inj htail
          exact (List.isChain_cons_cons.1 hclosed).1 rfl
    rw [if_neg (by simp [hc])]
  · rfl

theorem tokenMessage?_printed {token body : List Char} (htoken : token ≠ [])
    (hclosed : token.IsChain fun a b => a = ']' → isBlank b = false) (hbody : ∀ c ∈ body.head?, isBlank c = false) :
    tokenMessage? (':' :: ' ' :: '[' :: (token ++ ']' :: ' ' :: body)) = some (token, body) := by
  have hopen (s : List Char) : Text.trimStart (' ' :: '[' :: s) = '[' :: s := by
    rw [Text.trimStart_cons_of_blank _ (by decide), Text.trimStart_cons_of_ink _ (by decide)]
  rw [tokenMessage?, hopen]
  refine Text.shortestHead_append htoken (fun _ _ => rfl) (afterToken?_printed hbody) fun p q hpq _ hq => ?_
  rw [hpq, List.isChain_append] at hclosed
  exact afterToken?_eq_none hq hclosed.2.1

theorem afterPath?_eq_none {s : List Char} (h : ∀ c ∈ s.head?, c ≠ ':') : afterPath? s = none := by
  rw [afterPath?, place?_eq_none h]
  rfl

/-- A line is cut at its first colon, at the first bracket that a blank follows, and nowhere else. -/
theorem entry?_printed {path line column token body : List Char} (hline : Text.IsNumeral line)
    (hcolumn : Text.IsNumeral column) (hpath : path ≠ []) (hcolon : ':' ∉ path) (htoken : token ≠ [])
    (hclosed : token.IsChain fun a b => a = ']' → isBlank b = false) (hbody : ∀ c ∈ body.head?, isBlank c = false) :
    entry? (path ++ ':' :: (line ++ ':' :: (column ++ ':' :: ' ' :: '[' :: (token ++ ']' :: ' ' :: body)))) =
      some (.entry path line column token body) := by
  have hplace : ∀ c ∈ (':' :: ' ' :: '[' :: (token ++ ']' :: ' ' :: body)).head?, Text.isDigit c = false := by
    rintro c ⟨⟩
    decide
  have hnext : afterPath? (':' :: (line ++ ':' :: (column ++ ':' :: ' ' :: '[' :: (token ++ ']' :: ' ' :: body)))) =
      some ((line, column), token, body) := by
    simp only [afterPath?, place?_numerals hline hcolumn hplace, tokenMessage?_printed htoken hclosed hbody,
      Option.bind_eq_bind, Option.bind_some]
  have hearlier : ∀ p q, path = p ++ q → p ≠ [] → q ≠ [] → afterPath? (q ++ ':' :: (line ++ ':' :: (column ++
      ':' :: ' ' :: '[' :: (token ++ ']' :: ' ' :: body)))) = none := by
    intro p q hpq _ hq
    exact afterPath?_eq_none (head?_ne_of_notMem hcolon hpq hq)
  have hany : ∀ c ∈ path, anyChar c = true := fun _ _ => rfl
  have hhead := Text.shortestHead_append hpath hany hnext hearlier
  rw [ entry?, hhead]
  rfl

/-! ## The rule at the end of a message -/

theorem isBlank_of_isTypedRuleChar {c : Char} (h : isTypedRuleChar c = true) : isBlank c = false := by
  simp only [isTypedRuleChar, isRuleChar, Bool.or_eq_true, beq_iff_eq] at h
  rcases h with (((hword | rfl) | rfl) | rfl) | rfl
  · exact Text.isBlank_of_isWord hword
  all_goals decide

theorem trailingRule?_printed {message rule : List Char} (hne : rule ≠ [])
    (hrule : rule.all isTypedRuleChar = true) (hmessage : ∀ c ∈ message.getLast?, isBlank c = false) :
    trailingRule? (message ++ ' ' :: '(' :: (rule ++ [')'])) = some (message, rule) := by
  have hback : (message ++ ' ' :: '(' :: (rule ++ [')'])).reverse =
      ')' :: (rule.reverse ++ '(' :: ' ' :: message.reverse) := by simp
  have hrun : Text.run? isTypedRuleChar (rule.reverse ++ '(' :: ' ' :: message.reverse) =
      some (rule.reverse, '(' :: ' ' :: message.reverse) := by
    refine Text.run?_append (by simpa using hne) (fun c hc => List.all_eq_true.1 hrule c (List.mem_reverse.1 hc)) ?_
    rintro c ⟨⟩
    decide +kernel
  have hfront : Text.trimEnd (' ' :: message.reverse).reverse = message := by
    rw [List.reverse_cons, List.reverse_reverse,
      Text.trimEnd_append_of_blanks message (List.forall_mem_singleton.2 (by decide)), Text.trimEnd_eq_self hmessage]
  rw [trailingRule?, hback]
  simp only [hrun, hfront, List.reverse_reverse]

/-! ## Levels -/

theorem mem_name_of_lower {level : List Char} {severity : Severity}
    (h : String.ofList (Text.lowerAscii level) = severity.name) {c : Char} (hc : c ∈ level) :
    c.toLower ∈ severity.name.toList := by
  rw [← h, String.toList_ofList]
  exact List.mem_map_of_mem hc

theorem ink_of_lower {level : List Char} {severity : Severity}
    (h : String.ofList (Text.lowerAscii level) = severity.name) : ∀ c ∈ level, isBlank c = false ∧ c ≠ ']' := by
  have hname : severity.name.toList.all (fun c => !isBlank c && c != ']') = true := by cases severity <;> decide
  intro c hc
  have hlower : isBlank c.toLower = false ∧ c.toLower ≠ ']' := by
    simpa using List.all_eq_true.1 hname _ (mem_name_of_lower h hc)
  constructor
  · by_contra hblank
    rw [Bool.not_eq_false] at hblank
    rw [Text.toLower_of_isBlank hblank, hblank] at hlower
    cases hlower.1
  · rintro rfl
    exact hlower.2 rfl

theorem ofWord_name (severity : Severity) : Severity.ofWord severity.name = severity := by
  cases severity <;> decide

/-! ## From an entry to its finding -/

section Parts

variable (root : Path) (tool : Tool) (path line column : List Char) {token message : List Char}

theorem entryFinding_of_rule (htoken : Tight token) (hmessage : Tight message)
    (hlevel : String.ofList (Text.lowerAscii token) ∉ ["error", "warning"]) :
    entryFinding root tool path line column token message =
      ((Finding.new (root.resolve (String.ofList path)) (String.ofList token) (String.ofList message) tool).placed
        (Text.position line) (Text.position column)).ranked .warning := by
  have hnone : ¬ (String.ofList (Text.lowerAscii token) = "error" ∨
      String.ofList (Text.lowerAscii token) = "warning") := by simpa using hlevel
  unfold entryFinding
  rw [Text.trim_eq_self htoken, Text.trim_eq_self hmessage]
  simp only [if_neg hnone]

theorem entryFinding_of_level {severity : Severity} {text rule : List Char} (htoken : Tight token)
    (hmessage : Tight message) (hlevel : String.ofList (Text.lowerAscii token) = severity.name)
    (hrank : severity = .error ∨ severity = .warning) (hrule : trailingRule? message = some (text, rule)) :
    entryFinding root tool path line column token message =
      ((Finding.new (root.resolve (String.ofList path)) (String.ofList rule) (String.ofList text) tool).placed
        (Text.position line) (Text.position column)).ranked severity := by
  have hword : severity.name = "error" ∨ severity.name = "warning" := by
    rcases hrank with rfl | rfl
    · exact .inl rfl
    · exact .inr rfl
  unfold entryFinding
  rw [Text.trim_eq_self htoken, Text.trim_eq_self hmessage]
  simp only [hlevel, if_pos hword, hrule, ofWord_name]

end Parts

namespace Entry

variable {e : Entry}

theorem Valid.token (h : e.Valid) :
    IsPhrase e.token ∧ e.token.toList.IsChain fun a b => a = ']' → isBlank b = false := by
  have hfits := h.fits
  rcases e with ⟨path, line, column, rule, message, _ | ⟨severity, level⟩⟩
  · exact ⟨hfits.1, hfits.2.1⟩
  · obtain ⟨-, -, hlevel, -⟩ := hfits
    have hink := ink_of_lower hlevel
    have hne : level ≠ "" := by
      rintro rfl
      cases severity <;> exact absurd hlevel (by decide)
    exact ⟨Text.isPhrase_of_ink hne fun c hc => (hink c hc).1,
      (List.pairwise_of_forall_mem_list fun a ha b _ hab => absurd hab (hink a ha).2).isChain⟩

theorem isPhrase_rule (h : e.Valid) : IsPhrase e.rule := by
  have hfits := h.fits
  rcases e with ⟨path, line, column, rule, message, _ | ⟨severity, level⟩⟩
  · exact hfits.1
  · exact Text.isPhrase_of_ink hfits.1 fun c hc => isBlank_of_isTypedRuleChar (List.all_eq_true.1 hfits.2.1 c hc)

theorem isPhrase_body (h : e.Valid) : IsPhrase e.body := by
  have hrule : '\n' ∉ (" (" ++ e.rule).toList := by simp [(isPhrase_rule h).feed]
  have hmessage := h.message
  rcases e with ⟨path, line, column, rule, message, _ | ⟨severity, level⟩⟩
  · exact hmessage
  · have hbody := Text.isPhrase_append_text (c := ")") hmessage hrule (by decide)
    rwa [← String.append_assoc] at hbody

/-- A printed line has no outer blanks and no line feed. -/
theorem isPhrase_text (h : e.Valid) : IsPhrase e.text := by
  have hline := (Text.isPhrase_toString e.line).feed
  have hcolumn := (Text.isPhrase_toString e.column).feed
  have hplace : '\n' ∉ (":" ++ toString e.line ++ ":" ++ toString e.column ++ ": [" ++ e.token ++ "] ").toList := by
    simp only [String.toList_append, List.mem_append, hline, hcolumn, h.token.1.feed, or_false]
    decide
  have htext := Text.isPhrase_append_text h.path hplace (isPhrase_body h)
  simpa only [text, String.append_assoc] using htext

theorem of_text (h : e.Valid) : ColumnLine.of e.text.toList =
    .entry e.path.toList (Nat.toDigits 10 e.line) (Nat.toDigits 10 e.column) e.token.toList e.body.toList := by
  obtain ⟨htoken, hclosed⟩ := h.token
  rw [toList_text, ColumnLine.of, entry?_printed (Text.isNumeral_toDigits e.line) (Text.isNumeral_toDigits e.column)
    h.path.toList_ne h.colon htoken.toList_ne hclosed (isPhrase_body h).tight.1]
  rfl

/-- The parts of a printed line say the entry's finding. -/
theorem entryFinding_printed (root : Path) (tool : Tool) (h : e.Valid) :
    entryFinding root tool e.path.toList (Nat.toDigits 10 e.line) (Nat.toDigits 10 e.column) e.token.toList
      e.body.toList = e.finding root tool := by
  have htoken := h.token.1.tight
  have hbody := (isPhrase_body h).tight
  have hfits := h.fits
  have hmessage := h.message.tight.2
  rcases e with ⟨path, line, column, rule, message, _ | ⟨severity, level⟩⟩
  · obtain ⟨-, -, hlevel⟩ := hfits
    rw [entryFinding_of_rule root tool _ _ _ htoken hbody hlevel]
    simp only [finding, Finding.placed, Finding.ranked, Finding.fromOne_position_toDigits, String.ofList_toList]
    rfl
  · obtain ⟨hne, hrule, hlevel, hrank⟩ := hfits
    have htext : (message ++ " (" ++ rule ++ ")").toList =
        message.toList ++ ' ' :: '(' :: (rule.toList ++ [')']) := by simp
    have htrailing := trailingRule?_printed (by simpa using hne) hrule hmessage
    rw [← htext] at htrailing
    rw [entryFinding_of_level root tool _ _ _ htoken hbody hlevel hrank htrailing]
    simp only [finding, Finding.placed, Finding.ranked, Finding.fromOne_position_toDigits, String.ofList_toList]
    rfl

end Entry

/-! ## Reports -/

theorem findingsFrom_printed (root : Path) (tool : Tool) (pending : Pending) {entries : List Entry}
    (h : ∀ e ∈ entries, e.Valid) :
    findingsFrom root tool pending (entries.map fun e => ColumnLine.of e.text.toList) =
      entries.map (Entry.finding root tool) := by
  induction entries with
  | nil => rfl
  | cons e entries ih =>
    have he : e.Valid := h e (by simp)
    have hstep : step root tool pending (.of e.text.toList) = (pending, some (e.finding root tool)) := by
      rw [Entry.of_text he, step, Entry.entryFinding_printed root tool he]
    have hentries := ih fun e' he' => h e' (by simp [he'])
    simp only [List.map_cons, findingsFrom, hstep, hentries, Option.toList_some, List.singleton_append]

/-- A report of printed entries is read as their findings, one for each and in their order. -/
theorem findings_printed_entries (root : Path) (tool : Tool) {entries : List Entry} (h : ∀ e ∈ entries, e.Valid) :
    findings root tool ("\n".intercalate (entries.map Entry.text)).toList = entries.map (Entry.finding root tool) := by
  have hphrase : ∀ l ∈ entries.map Entry.text, IsPhrase l :=
    List.forall_mem_map.2 fun e he => Entry.isPhrase_text (h e he)
  rw [findings, inkLines_of_isPhrase hphrase, List.map_map, List.map_map, Function.comp_def, Function.comp_def,
    findingsFrom_printed root tool none h]

/-- Two entries whose messages look like places, levels and rules. -/
def lookalikes : List Entry :=
  [⟨"my roles/a.yml", 0, 99999999999, "yaml[truthy]", "b.yml:1:2: [error] c] (d)", .ruled⟩,
    ⟨"x.yml", 7, 3, "yaml[line-length]", "too long (82 > 80) [x] (y)", .leveled .error "ERROR"⟩]

theorem findings_printed_entries_lookalikes :
    (∀ e ∈ lookalikes, e.Valid) ∧
    ((findings ⟨"/w"⟩ .yamllint ("my roles/a.yml:0:99999999999: [yaml[truthy]] b.yml:1:2: [error] c] (d)\n" ++
        "x.yml:7:3: [ERROR] too long (82 > 80) [x] (y) (yaml[line-length])").toList).map fun f =>
          (f.file, f.line, f.column, f.rule, f.message, f.severity)) =
      [(⟨"/w/my roles/a.yml"⟩, 1, 0xFFFFFFFF, "yaml[truthy]", "b.yml:1:2: [error] c] (d)", .warning),
        (⟨"/w/x.yml"⟩, 7, 3, "yaml[line-length]", "too long (82 > 80) [x] (y)", .error)] := by
  have hvalid : ∀ e ∈ lookalikes, e.Valid := by decide +kernel
  have htext : "\n".intercalate (lookalikes.map Entry.text) =
      "my roles/a.yml:0:99999999999: [yaml[truthy]] b.yml:1:2: [error] c] (d)\n" ++
        "x.yml:7:3: [ERROR] too long (82 > 80) [x] (y) (yaml[line-length])" := by decide +kernel
  have hfindings := findings_printed_entries ⟨"/w"⟩ .yamllint hvalid
  rw [htext] at hfindings
  rw [hfindings]
  exact ⟨hvalid, by decide +kernel⟩

end LintHub.Columns
