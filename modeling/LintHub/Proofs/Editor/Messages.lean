import LintHub.Editor.Session
import LintHub.Proofs.Checking.Runs
import LintHub.Proofs.Url.File

/-!
# What a message changes

* `Session.lookup_replace`, `Session.lookup_without` : the pairs of a session as a map.
* `Session.validate_cases` : a check of a document publishes what it stores, or it does neither.
* `Session.perform_frame`, `Session.reload_frame` : commands and new settings leave documents and findings alone.
* `Mark.gist_of` : what a mark and its finding have in common, whatever the text is. `Finding.hover?_eq_none_iff` and
  `Action.exists_of_mem_offered` say which findings the readers of a session look at.
-/

namespace LintHub

/-! ## Results -/

namespace Checker

variable {h : Host} {now : UInt64} {c : Checker} {d : Disk} {path : Path} {r : FileResult}

theorem path_of_checkFile (hr : (c.checkFile h now d path).1 = .ok r) : r.path = c.absolute path := by
  unfold checkFile at hr
  split at hr
  · cases hr
  · cases hr
    exact path_checkHashed

theorem absolute_of_isAbsolute (hpath : path.isAbsolute = true) : c.absolute path = path := by
  rw [absolute, Path.join, if_pos hpath]

end Checker

namespace Session

/-! ## Pairs -/

section Pairs

variable {α : Type} {pairs : List (Url × α)} {url other : Url}

theorem lookup_replace (a : α) :
    (replace url a pairs).lookup other = if other = url then some a else pairs.lookup other := by
  induction pairs with
  | nil =>
    rw [replace, List.lookup_cons]
    split <;> simp_all
  | cons pair rest ih =>
    obtain ⟨u, b⟩ := pair
    rw [replace]
    split
    · next heq =>
      obtain rfl : u = url := heq
      rw [List.lookup_cons, List.lookup_cons]
      by_cases hother : other = u
      · simp [hother]
      · simp [hother, beq_eq_false_iff_ne.2 hother]
    · next hne =>
      rw [List.lookup_cons, List.lookup_cons, ih]
      by_cases hother : other = u
      · subst hother
        simp [hne]
      · simp [beq_eq_false_iff_ne.2 hother]

theorem lookup_without : (without url pairs).lookup other = if other = url then none else pairs.lookup other := by
  rw [without]
  induction pairs with
  | nil => simp
  | cons pair rest ih =>
    obtain ⟨u, b⟩ := pair
    by_cases hu : u = url
    · rw [List.filter_cons_of_neg (by simp [hu]), ih, List.lookup_cons]
      by_cases hother : other = url
      · simp [hother]
      · simp [hother, hu, beq_eq_false_iff_ne.2 hother]
    · rw [List.filter_cons_of_pos (by simp [hu]), List.lookup_cons, List.lookup_cons, ih]
      by_cases hother : other = u
      · subst hother
        simp [hu]
      · simp [beq_eq_false_iff_ne.2 hother]

theorem mem_keys_replace (a : α) :
    other ∈ (replace url a pairs).map Prod.fst ↔ other = url ∨ other ∈ pairs.map Prod.fst := by
  induction pairs with
  | nil => simp [replace]
  | cons pair rest ih =>
    rw [replace]
    split
    · next heq =>
      rw [← heq]
      simp
    · rw [List.map_cons, List.mem_cons, ih, List.map_cons, List.mem_cons]
      exact or_left_comm

theorem mem_keys_without : other ∈ (without url pairs).map Prod.fst ↔ other ≠ url ∧ other ∈ pairs.map Prod.fst := by
  constructor
  · intro hmem
    obtain ⟨pair, hpair, rfl⟩ := List.mem_map.1 hmem
    obtain ⟨hpair, hne⟩ := List.mem_filter.1 hpair
    exact ⟨by simpa using hne, List.mem_map_of_mem hpair⟩
  · rintro ⟨hne, hmem⟩
    obtain ⟨pair, hpair, rfl⟩ := List.mem_map.1 hmem
    exact List.mem_map_of_mem (List.mem_filter.2 ⟨hpair, by simpa using hne⟩)

end Pairs

/-! ## Checks -/

variable {w : Surroundings} {s : Session} {d : Disk} {url other : Url} {version : Option Int}

section

variable {s' : Session}

theorem findingsOf_of_stored (h : s'.stored = s.stored) : s'.findingsOf url = s.findingsOf url := by
  rw [findingsOf, h, findingsOf]

theorem findingsOf_of_replace {found : List Finding} (h : s'.stored = replace url found s.stored) :
    s'.findingsOf other = if other = url then found else s.findingsOf other := by
  rw [findingsOf, h, lookup_replace]
  split
  · rfl
  · rfl

theorem findingsOf_of_without (h : s'.stored = without url s.stored) :
    s'.findingsOf other = if other = url then [] else s.findingsOf other := by
  rw [findingsOf, h, lookup_without]
  split
  · rfl
  · rfl

end

/-- A check leaves the documents as they are. It publishes the marks of findings in the file of the document, and
stores these findings for it; or it says nothing and stores nothing. -/
theorem validate_cases (w : Surroundings) (s : Session) (d : Disk) (url : Url) (version : Option Int) :
    (s.validate w d url version).2.1.documents = s.documents ∧
    (((s.validate w d url version).1 = [] ∧ (s.validate w d url version).2.1.stored = s.stored) ∨
    ∃ path found failures, url.filePath? = some path ∧ (∀ f ∈ found, f.file.same path = true) ∧
      (s.validate w d url version).1 =
        notices url version failures (found.map fun f => Mark.of f (s.textOf? url)) ∧
      (s.validate w d url version).2.1.stored = replace url found s.stored) := by
  unfold validate
  split
  · next path checker hpath _ =>
    have hresult {r : FileResult} (hr : (checker.checkFile w.host w.now d path).1 = .ok r) : r.path = path :=
      (Checker.path_of_checkFile hr).trans
        (Checker.absolute_of_isAbsolute (Url.isAbsolute_of_filePath? hpath))
    split
    -- The file cannot be read.
    · exact ⟨rfl, .inl ⟨rfl, rfl⟩⟩
    · next result checker' d' heq =>
      refine ⟨rfl, .inr ⟨path, ownFindings result, result.failures, hpath, fun f hf => ?_, rfl, rfl⟩⟩
      have hown := (List.mem_filter.1 hf).2
      rwa [hresult (by rw [heq])] at hown
  · exact ⟨rfl, .inl ⟨rfl, rfl⟩⟩

theorem documents_validate (w : Surroundings) (s : Session) (d : Disk) (url : Url) (version : Option Int) :
    (s.validate w d url version).2.1.documents = s.documents :=
  (s.validate_cases w d url version).1

theorem documents_validateAll (w : Surroundings) (s : Session) (d : Disk) (urls : List Url) :
    (s.validateAll w d urls).2.1.documents = s.documents := by
  induction urls generalizing s d with
  | nil => rfl
  | cons url rest ih =>
    rw [validateAll]
    exact (ih _ _).trans (s.documents_validate w d url none)

/-- A check while the cache is off, in full. -/
theorem validate_of_disabled {checker : Checker} {path : Path} {text : String} (hpath : url.filePath? = some path)
    (hchecker : s.checker = some checker) (hoff : checker.cache.enabled = false) (htext : d.readText path = .ok text) :
    s.validate w d url version =
      (notices url version (checker.checkFresh w.host d path).1.failures
        ((ownFindings (checker.checkFresh w.host d path).1).map fun f => Mark.of f (s.textOf? url)),
      { s with
        checker := some checker
        stored := replace url (ownFindings (checker.checkFresh w.host d path).1) s.stored },
      (checker.checkFresh w.host d path).2) := by
  have habsolute : checker.absolute path = path :=
    Checker.absolute_of_isAbsolute (Url.isAbsolute_of_filePath? hpath)
  have hcheck : checker.checkFile w.host w.now d path = (.ok (checker.checkFresh w.host d path).1, checker,
      (checker.checkFresh w.host d path).2) := by
    have htarget : d.readText (checker.absolute path) = .ok text := by rw [habsolute, htext]
    rw [Checker.checkFile_of_disabled hoff htarget, habsolute]
  have hsave (d : Disk) : checker.saveCache d = .ok d := by
    rw [Checker.saveCache, Cache.save, if_pos (by simp [hoff])]
  unfold validate
  simp only [hpath, hchecker, hcheck, hsave, Except.toOption, Option.getD_some]

/-! ## Settings and commands -/

theorem reload_frame (w : Surroundings) (s : Session) (d : Disk) :
    (s.reload w d).documents = s.documents ∧ (s.reload w d).stored = s.stored := by
  unfold reload
  split
  · exact ⟨rfl, rfl⟩
  · exact ⟨rfl, rfl⟩

theorem perform_frame (w : Surroundings) (s : Session) (d : Disk) (c : EditorCommand) :
    (s.perform w d c).2.1.documents = s.documents ∧ (s.perform w d c).2.1.stored = s.stored := by
  fun_cases perform <;> exact ⟨rfl, rfl⟩

/-- A command that is carried out ends in a check of its document; one that fails says so. -/
theorem execute_cases (w : Surroundings) (s : Session) (d : Disk) (c : EditorCommand) :
    (∃ text, (s.execute w d c).1 = [.popUp .error text] ∧
      (s.execute w d c).2 = (s.perform w d c).2) ∨
    s.execute w d c = (s.perform w d c).2.1.validate w (s.perform w d c).2.2 c.url none := by
  unfold execute
  split
  · next text s' d' heq => exact .inl ⟨text, rfl, by rw [heq]⟩
  · next s' d' heq => exact .inr (by rw [heq])

end Session

/-! ## Marks -/

/-- What a mark and its finding have in common. The line counts from zero. -/
structure Gist where
  rule : String
  message : String
  severity : Severity
  tool : Tool
  line : Nat
deriving DecidableEq

def Finding.gist (f : Finding) : Gist := ⟨f.rule, f.message, f.severity, f.tool, f.row⟩

def Mark.gist (m : Mark) : Gist := ⟨m.rule, m.message, m.severity, m.tool, m.range.start.line⟩

theorem Range.line_start_ofLine (line column : Nat) (text : Option String) :
    (Range.ofLine line column text).start.line = line - 1 := by
  unfold Range.ofLine
  split
  · rfl
  · rfl

theorem Mark.gist_of (f : Finding) (text : Option String) : (Mark.of f text).gist = f.gist := by
  rw [Mark.gist, Mark.of, Range.line_start_ofLine]
  rfl

theorem Finding.hover?_eq_none_iff {fs : List Finding} {line : Nat} :
    Finding.hover? fs line = none ↔ ∀ f ∈ fs, f.row ≠ line := by
  unfold Finding.hover?
  split
  · next heq =>
    rw [List.filter_eq_nil_iff] at heq
    exact ⟨fun _ f hf hrow => heq f hf (by simpa using hrow), fun _ => rfl⟩
  · next hne =>
    refine ⟨fun h => absurd h (Option.some_ne_none _), fun hall => absurd (List.filter_eq_nil_iff.2 ?_) hne⟩
    intro f hf
    simpa using hall f hf

namespace Action

variable {url : Url} {text : Option String} {fs : List Finding} {a : Action}

/-- Each of the three actions for a finding shows the mark of that finding. -/
theorem mark_of_mem_single {f : Finding}
    (h : a ∈ (suppress? url text f).toList ∨ a ∈ (ignore? url text f).toList ∨ a ∈ (fix? url text f).toList) :
    a.mark = .of f text := by
  rcases h with h | h | h
  · unfold suppress? at h
    cases text with
    | none => cases h
    | some t =>
      cases hcomment : f.tool.suppression? f.rule with
      | none => simp [hcomment] at h
      | some comment =>
        simp only [hcomment, Option.bind_eq_bind, Option.bind_some, Option.toList_some, List.mem_singleton] at h
        rw [h]
  · unfold ignore? at h
    split at h
    · rw [List.mem_singleton.1 h]
    · cases h
  · unfold fix? at h
    split at h
    · rw [List.mem_singleton.1 h]
    · cases h

theorem exists_of_mem_offeredFrom {offered : List Tool} (h : a ∈ offeredFrom url text offered fs) :
    ∃ f ∈ fs, a.mark = .of f text := by
  induction fs generalizing offered with
  | nil => cases h
  | cons f rest ih =>
    rw [offeredFrom, List.mem_append, List.mem_append, List.mem_append] at h
    rcases h with ((h | h) | h) | h
    · exact ⟨f, List.mem_cons_self, mark_of_mem_single (.inl h)⟩
    · exact ⟨f, List.mem_cons_self, mark_of_mem_single (.inr (.inl h))⟩
    · split at h
      · cases h
      · exact ⟨f, List.mem_cons_self, mark_of_mem_single (.inr (.inr h))⟩
    · obtain ⟨g, hg, hmark⟩ := ih h
      exact ⟨g, List.mem_cons_of_mem _ hg, hmark⟩

theorem exists_of_mem_offered {range : Range} (h : a ∈ offered url text fs range) :
    ∃ f ∈ fs, range.hasLine f.row = true ∧ a.mark = .of f text := by
  obtain ⟨f, hf, hmark⟩ := exists_of_mem_offeredFrom h
  obtain ⟨hf, hrow⟩ := List.mem_filter.1 hf
  exact ⟨f, hf, hrow, hmark⟩

end Action

end LintHub
