import LintHub.Editor.Method
import LintHub.Proofs.Editor.Messages

/-!
# Offered actions

* `Deed.Kind` : suppressing, ignoring, or mending by a tool. `Action.filter_suppress_offeredFrom`,
  `Action.filter_ignore_offeredFrom` and `Action.filter_fix_offeredFrom` : the offered actions of each kind.
* `EditorCommand.parse?_args` : a command is read back from the arguments that an editor gets.
* `Action.Complete` : no action for a finding is missing or offered twice. `Action.Feasible` : an offered command can be
  carried out.
* `Action.offered_complete_feasible` : both hold of the actions for every document, findings and range.
-/

namespace LintHub

variable {url : Url} {text : Option String} {fs : List Finding} {f : Finding} {a : Action} {t : Tool}

/-! ## Kinds of actions -/

/-- What an action is for. -/
inductive Deed.Kind where
  | suppress
  | ignore
  | fix (tool : Tool)
deriving DecidableEq

def Deed.kind : Deed → Kind
  | insert .. => .suppress
  | command (.ignoreRule ..) => .ignore
  | command (.fix _ tool) => .fix tool

namespace Action

def kind (a : Action) : Deed.Kind := a.deed.kind

theorem suppress?_eq_some_iff :
    suppress? url text f = some a ↔
      ∃ t comment, text = some t ∧ f.tool.suppression? f.rule = some comment ∧
        a = ⟨"Suppress \x60" ++ f.rule ++ "\x60 on this line", .of f text,
          .insert url (.endOfLine t f.row) ("  " ++ comment)⟩ := by
  unfold suppress?
  cases text with
  | none => simp
  | some t => cases f.tool.suppression? f.rule <;> simp [eq_comm]

theorem isSome_suppress? : (suppress? url text f).isSome = (text.isSome && f.tool != .preCommit) := by
  cases htool : f.tool <;> cases text <;> simp [suppress?, htool, Tool.suppression?]

theorem kind_suppress? (h : suppress? url text f = some a) : a.kind = .suppress := by
  obtain ⟨t, comment, -, -, rfl⟩ := suppress?_eq_some_iff.1 h
  rfl

theorem ignore?_eq_some_iff :
    ignore? url text f = some a ↔
      f.tool = .ansibleLint ∧
        a = ⟨"Add \x60" ++ f.rule ++ "\x60 to ignore file", .of f text, .command (.ignoreRule url f.rule)⟩ := by
  unfold ignore?
  split
  · next htool =>
    rw [Option.some.injEq, and_iff_right htool]
    exact eq_comm
  · next htool => simp [htool]

theorem fix?_eq_some_iff :
    fix? url text f = some a ↔
      (f.fixable = true ∧ f.tool ≠ .yamllint) ∧
        a = ⟨"Fix with " ++ f.tool.displayName, .of f text, .command (.fix url f.tool)⟩ := by
  unfold fix?
  split
  · next hfix =>
    rw [Bool.and_eq_true, bne_iff_ne] at hfix
    rw [Option.some.injEq, and_iff_right hfix]
    exact eq_comm
  · next hfix =>
    rw [Bool.and_eq_true, bne_iff_ne] at hfix
    simp [hfix]

theorem kind_ignore? (h : ignore? url text f = some a) : a.kind = .ignore := by
  obtain ⟨-, rfl⟩ := ignore?_eq_some_iff.1 h
  rfl

theorem kind_fix? (h : fix? url text f = some a) : a.kind = .fix f.tool := by
  obtain ⟨-, rfl⟩ := fix?_eq_some_iff.1 h
  rfl

theorem mark_of_offer (h : suppress? url text f = some a ∨ ignore? url text f = some a ∨ fix? url text f = some a) :
    a.mark = .of f text := by
  have hmem : a ∈ (suppress? url text f).toList ∨ a ∈ (ignore? url text f).toList ∨ a ∈ (fix? url text f).toList := by
    simpa using h
  exact mark_of_mem_single hmem

theorem isSome_fix? : (fix? url text f).isSome = (f.fixable && f.tool != .yamllint) := by
  unfold fix?
  split <;> simp_all

/-! ## The actions of each kind -/

theorem filter_toList {o : Option Action} {k : Deed.Kind} (h : ∀ a, o = some a → a.kind = k) (k' : Deed.Kind) :
    o.toList.filter (fun a => a.kind = k') = if k = k' then o.toList else [] := by
  cases o with
  | none => simp
  | some a =>
    have hkind : a.kind = k := h a rfl
    by_cases hk : k = k' <;> simp [hkind, hk]

/-- The offers for the first finding, and those for the others. -/
theorem filter_offeredFrom_cons (seen : List Tool) (f : Finding) (rest : List Finding) (k : Deed.Kind) :
    (offeredFrom url text seen (f :: rest)).filter (fun a => a.kind = k) =
      (if .suppress = k then (suppress? url text f).toList else []) ++
      (if .ignore = k then (ignore? url text f).toList else []) ++
      (if .fix f.tool = k ∧ f.tool ∉ seen then (fix? url text f).toList else []) ++
      (offeredFrom url text (if f.tool ∉ seen ∧ (fix? url text f).isSome then f.tool :: seen else seen) rest).filter
        (fun a => a.kind = k) := by
  rw [offeredFrom]
  simp only [List.filter_append, filter_toList (fun _ => kind_suppress?), filter_toList (fun _ => kind_ignore?)]
  by_cases hseen : f.tool ∈ seen
  · simp [hseen]
  · simp [hseen, filter_toList (fun _ => kind_fix?)]

theorem filter_suppress_offeredFrom (seen : List Tool) :
    (offeredFrom url text seen fs).filter (fun a => a.kind = .suppress) = fs.filterMap (suppress? url text) := by
  induction fs generalizing seen with
  | nil => rfl
  | cons f rest ih =>
    rw [filter_offeredFrom_cons, ih, List.filterMap_cons]
    cases suppress? url text f <;> simp

theorem filter_ignore_offeredFrom (seen : List Tool) :
    (offeredFrom url text seen fs).filter (fun a => a.kind = .ignore) = fs.filterMap (ignore? url text) := by
  induction fs generalizing seen with
  | nil => rfl
  | cons f rest ih =>
    rw [filter_offeredFrom_cons, ih, List.filterMap_cons]
    cases ignore? url text f <;> simp

/-- A tool that was not offered before is offered for its first finding that it can mend. -/
theorem filter_fix_offeredFrom (seen : List Tool) (t : Tool) :
    (offeredFrom url text seen fs).filter (fun a => a.kind = .fix t) =
      if t ∈ seen then []
      else ((fs.find? fun f => f.tool == t && (fix? url text f).isSome).bind (fix? url text)).toList := by
  induction fs generalizing seen with
  | nil => simp [offeredFrom]
  | cons f rest ih =>
    rw [filter_offeredFrom_cons, ih]
    by_cases htool : f.tool = t
    · subst htool
      by_cases hseen : f.tool ∈ seen
      · simp [hseen]
      · cases hfix : fix? url text f with
        | none => simp [hseen, hfix]
        | some a => simp [hseen, hfix]
    · by_cases hfirst : f.tool ∉ seen ∧ (fix? url text f).isSome = true
      · simp [htool, hfirst, Ne.symm htool]
      · simp [htool, hfirst]

end Action

/-! ## Commands -/

theorem Tool.ofText?_id (t : Tool) : Tool.ofText? t.id = some t := by
  cases t <;> decide +kernel

namespace EditorCommand

variable {c : EditorCommand}

/-- A command whose address is read back as it is written is read back from its name and arguments. -/
theorem parse?_args (h : Url.parse? c.url.text = some c.url) : parse? c.name c.args = some c := by
  cases c with
  | ignoreRule url rule =>
    have hurl : Url.parse? url.text = some url := h
    simp only [args, parse?, EditorCommand.url, hurl, name, argument, if_pos]
  | fix url tool =>
    have hurl : Url.parse? url.text = some url := h
    have hname : fixName ≠ ignoreName := by decide
    simp only [args, parse?, EditorCommand.url, hurl, name, argument, if_neg hname, if_pos, Tool.ofText?_id,
      Option.map_some]

/-- What an editor calls to have a command carried out. -/
def params (c : EditorCommand) : Json := .obj [("command", .str c.name), ("arguments", .arr c.args)]

theorem of?_params (h : Url.parse? c.url.text = some c.url) :
    ClientMessage.of? "workspace/executeCommand" c.params = some (.execute c.name (some c)) := by
  have hread : ClientMessage.of? "workspace/executeCommand" c.params =
      some (.execute c.name (parse? c.name c.args)) := rfl
  rw [hread, parse?_args h]

end EditorCommand

namespace Action

/-! ## All offers -/

/-- The findings on the lines of a range. -/
def onLines (fs : List Finding) (range : Range) : List Finding := fs.filter fun f => range.hasLine f.row

/-- Each action that the findings call for is offered once, with the mark of its finding, and no other is. -/
structure Complete (text : Option String) (shown : List Finding) (actions : List Action) : Prop where
  suppress : (actions.filter fun a => a.kind = .suppress).map mark =
    (shown.filter fun f => text.isSome && f.tool != .preCommit).map (Mark.of · text)
  ignore : (actions.filter fun a => a.kind = .ignore).map mark =
    (shown.filter fun f => f.tool == .ansibleLint).map (Mark.of · text)
  /-- A tool is offered for the first finding that it can mend. -/
  fix : ∀ t ≠ .yamllint, (actions.filter fun a => a.kind = .fix t).map mark =
    ((shown.find? fun f => f.tool == t && f.fixable).map (Mark.of · text)).toList

/-- What an action asks for can be carried out. -/
structure Feasible (url : Url) (a : Action) : Prop where
  /-- A command is read back from its name and arguments, also in the call that an editor makes. -/
  parsed : ∀ c, a.deed = .command c → EditorCommand.parse? c.name c.args = some c ∧
    ClientMessage.of? "workspace/executeCommand" c.params = some (.execute c.name (some c))
  /-- It is about the document, and about the rule or the tool of the mark. -/
  meant : ∀ c, a.deed = .command c → c = .ignoreRule url a.mark.rule ∨ c = .fix url a.mark.tool
  /-- A tool that is to mend the file can do so. -/
  mends : ∀ u t, a.deed = .command (.fix u t) → ∀ program target, ∃ command, ToolCommand.fix t program target = .ok command

theorem map_mark_filterMap {offer : Finding → Option Action} (h : ∀ f a, offer f = some a → a.mark = .of f text)
    (fs : List Finding) :
    (fs.filterMap offer).map mark = (fs.filter fun f => (offer f).isSome).map (Mark.of · text) := by
  induction fs with
  | nil => rfl
  | cons f rest ih =>
    rw [List.filterMap_cons, List.filter_cons]
    cases hf : offer f with
    | none => simpa using ih
    | some a => simpa [h f a hf] using ih

theorem complete_offered (url : Url) (text : Option String) (fs : List Finding) (range : Range) :
    Complete text (onLines fs range) (offered url text fs range) where
  suppress := by
    have hmark (f : Finding) (a : Action) (ha : suppress? url text f = some a) : a.mark = .of f text :=
      mark_of_offer (.inl ha)
    rw [offered, filter_suppress_offeredFrom, map_mark_filterMap hmark]
    simp only [isSome_suppress?, onLines]
  ignore := by
    have hmark (f : Finding) (a : Action) (ha : ignore? url text f = some a) : a.mark = .of f text :=
      mark_of_offer (.inr (.inl ha))
    have hsome (f : Finding) : (ignore? url text f).isSome = (f.tool == .ansibleLint) := by
      unfold ignore?
      split <;> simp_all
    rw [offered, filter_ignore_offeredFrom, map_mark_filterMap hmark]
    simp only [hsome, onLines]
  fix t ht := by
    -- The first finding that the tool is offered for is the first one of the tool that can be mended.
    have hsome (f : Finding) : (f.tool == t && (fix? url text f).isSome) = (f.tool == t && f.fixable) := by
      rw [isSome_fix?]
      by_cases htool : f.tool = t
      · simp [htool, ht]
      · rw [beq_eq_false_iff_ne.2 htool, Bool.false_and, Bool.false_and]
    rw [offered, filter_fix_offeredFrom, if_neg List.not_mem_nil, ← onLines]
    simp only [hsome]
    cases hfirst : (onLines fs range).find? fun f => f.tool == t && f.fixable with
    | none => rfl
    | some f =>
      have hf := List.find?_some hfirst
      rw [← hsome, Bool.and_eq_true] at hf
      obtain ⟨a, ha⟩ := Option.isSome_iff_exists.1 hf.2
      have hmark : a.mark = .of f text := mark_of_offer (.inr (.inr ha))
      simp [ha, hmark]

/-- An offered action is one of the three for a finding on the lines. -/
theorem mem_offered {range : Range} (h : a ∈ offered url text fs range) :
    ∃ f ∈ onLines fs range, suppress? url text f = some a ∨ ignore? url text f = some a ∨ fix? url text f = some a := by
  have hfilter : a ∈ (offered url text fs range).filter fun b => b.kind = a.kind :=
    List.mem_filter.2 ⟨h, decide_eq_true rfl⟩
  rw [offered] at hfilter
  cases hkind : a.kind with
  | suppress =>
    rw [hkind, filter_suppress_offeredFrom, List.mem_filterMap] at hfilter
    obtain ⟨f, hf, ha⟩ := hfilter
    exact ⟨f, hf, .inl ha⟩
  | ignore =>
    rw [hkind, filter_ignore_offeredFrom, List.mem_filterMap] at hfilter
    obtain ⟨f, hf, ha⟩ := hfilter
    exact ⟨f, hf, .inr (.inl ha)⟩
  | fix t =>
    rw [hkind, filter_fix_offeredFrom, if_neg List.not_mem_nil, Option.mem_toList, Option.bind_eq_some_iff] at hfilter
    obtain ⟨f, hf, ha⟩ := hfilter
    exact ⟨f, List.mem_of_find?_eq_some hf, .inr (.inr ha)⟩

theorem feasible_of_command {c : EditorCommand} (hdeed : a.deed = .command c) (hurl : Url.parse? c.url.text = some c.url)
    (hmeant : c = .ignoreRule url a.mark.rule ∨ c = .fix url a.mark.tool ∧ a.mark.tool ≠ .yamllint) :
    Feasible url a where
  parsed c' hc' := by
    obtain rfl : c = c' := Deed.command.inj (hdeed.symm.trans hc')
    exact ⟨EditorCommand.parse?_args hurl, EditorCommand.of?_params hurl⟩
  meant c' hc' := by
    obtain rfl : c = c' := Deed.command.inj (hdeed.symm.trans hc')
    exact hmeant.imp_right And.left
  mends u t hfix program target := by
    obtain rfl : c = .fix u t := Deed.command.inj (hdeed.symm.trans hfix)
    rcases hmeant with hmeant | ⟨hmeant, htool⟩
    · cases hmeant
    · obtain ⟨-, rfl⟩ := EditorCommand.fix.inj hmeant
      cases htool' : a.mark.tool with
      | yamllint => exact absurd htool' htool
      | ansibleLint => exact ⟨_, rfl⟩
      | preCommit => exact ⟨_, rfl⟩

theorem feasible_offered {range : Range} (hurl : Url.parse? url.text = some url)
    (h : a ∈ offered url text fs range) : Feasible url a := by
  obtain ⟨f, -, hsuppress | hignore | hfix⟩ := mem_offered h
  · obtain ⟨t, comment, -, -, rfl⟩ := suppress?_eq_some_iff.1 hsuppress
    exact ⟨fun _ hc => (nomatch hc), fun _ hc => (nomatch hc), fun _ _ hc => (nomatch hc)⟩
  · obtain ⟨-, rfl⟩ := ignore?_eq_some_iff.1 hignore
    exact feasible_of_command rfl hurl (.inl rfl)
  · obtain ⟨⟨-, htool⟩, rfl⟩ := fix?_eq_some_iff.1 hfix
    exact feasible_of_command rfl hurl (.inr ⟨rfl, htool⟩)

/-- Every action that the findings on the lines call for is offered, and every offered action can be carried out. -/
theorem offered_complete_feasible (text : Option String) (fs : List Finding) (range : Range)
    (hurl : Url.parse? url.text = some url) :
    Complete text (onLines fs range) (offered url text fs range) ∧
      ∀ a ∈ offered url text fs range, Feasible url a :=
  ⟨complete_offered url text fs range, fun _ h => feasible_offered hurl h⟩

def siteUrl : Url := ⟨"file", none, some "", none, .segments ["w", "site.yml"], none, none⟩

/-- Findings of all tools on two lines, and one behind them. -/
def siteFindings : List Finding :=
  [(Finding.new ⟨"/w/site.yml"⟩ "no-changed-when" "m" .ansibleLint).onLine 1,
    (Finding.new ⟨"/w/site.yml"⟩ "fqcn" "m" .ansibleLint).onLine 9,
    (Finding.new ⟨"/w/site.yml"⟩ "truthy" "m" .yamllint).onLine 2,
    (Finding.new ⟨"/w/site.yml"⟩ "name[missing]" "m" .ansibleLint).onLine 2,
    (Finding.new ⟨"/w/site.yml"⟩ "end-of-file-fixer" "m" .preCommit).onLine 2,
    (Finding.new ⟨"/w/site.yml"⟩ "fqcn" "m" .ansibleLint).onLine 2]

/-- The tool is offered for the second of its findings on the lines, the first that it can mend. -/
theorem offered_complete_feasible_mixed :
    Url.parse? siteUrl.text = some siteUrl ∧
    (∀ a ∈ offered siteUrl none siteFindings ⟨⟨0, 0⟩, ⟨1, 0⟩⟩, Feasible siteUrl a) ∧
    ((offered siteUrl none siteFindings ⟨⟨0, 0⟩, ⟨1, 0⟩⟩).filter fun a => a.kind = .fix .ansibleLint).map mark =
      [Mark.of ((Finding.new ⟨"/w/site.yml"⟩ "name[missing]" "m" .ansibleLint).onLine 2) none] := by
  have hurl : Url.parse? siteUrl.text = some siteUrl := by decide +kernel
  obtain ⟨hcomplete, hfeasible⟩ := offered_complete_feasible none siteFindings ⟨⟨0, 0⟩, ⟨1, 0⟩⟩ hurl
  have hfirst : (onLines siteFindings ⟨⟨0, 0⟩, ⟨1, 0⟩⟩).find? (fun f => f.tool == .ansibleLint && f.fixable) =
      some ((Finding.new ⟨"/w/site.yml"⟩ "name[missing]" "m" .ansibleLint).onLine 2) := by decide +kernel
  refine ⟨hurl, hfeasible, ?_⟩
  rw [hcomplete.fix .ansibleLint (by decide), hfirst]
  rfl

end Action

end LintHub
