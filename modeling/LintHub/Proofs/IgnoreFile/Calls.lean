import LintHub.Proofs.IgnoreFile
import LintHub.Proofs.Path.Segments

/-!
# An ignore file as an ordered set

* `IgnoreFile.calls` : a file after calls of `add`, `remove` and `contains`, one after another. `entries_calls` : its
  entries are those of an ordered set under the same calls, and `filter_lines_calls` : the lines that hold none of the
  entries that were added or removed are the same and in the same order.
* `IgnoreFile.StepsAsSet` : what one more call answers and leaves.
* `keyOf_eq_of_same_join` : an absolute path and its form below the root name the same entry.
* `IgnoreFile.NamesFiles` : a file below the root has its way from there as its name, and different files have different
  names.
* `calls_act_as_ordered_set` : all of it, after any calls.
-/

namespace LintHub.IgnoreFile

variable {i : IgnoreFile} {path : Path} {rule : String}

/-! ## Single calls -/

/-- The entries of an ordered set in which a pair is put at the end unless it is there. -/
def putPair (pairs : List (String × String)) (pair : String × String) : List (String × String) :=
  if pair ∈ pairs then pairs else pairs ++ [pair]

/-- The entries of an ordered set out of which a pair is taken. -/
def takePair (pairs : List (String × String)) (pair : String × String) : List (String × String) :=
  pairs.filter fun other => other ≠ pair

theorem not_contains_iff : i.contains path rule = false ↔ (i.keyOf path, rule) ∉ i.entries := by
  rw [← contains_iff, Bool.not_eq_true]

theorem mem_entries_iff {pair : String × String} : pair ∈ i.entries ↔ ∃ l ∈ i.lines, l.pair? = some pair := by
  rw [entries, List.mem_filterMap]

@[simp] theorem keyOf_add (other : Path) : (i.add path rule).2.keyOf other = i.keyOf other := by
  rw [keyOf, keyOf, (file_add i path rule).2]

@[simp] theorem keyOf_remove (other : Path) : (i.remove path rule).2.keyOf other = i.keyOf other := rfl

theorem add_of_notMem (h : (i.keyOf path, rule) ∉ i.entries) :
    i.add path rule = (true, { i with lines := i.lines ++ [lineOf (i.keyOf path) rule] }) :=
  add_of_not_contains (mt contains_iff.1 h)

theorem add_of_mem (h : (i.keyOf path, rule) ∈ i.entries) : i.add path rule = (false, i) :=
  add_of_contains (contains_iff.2 h)

theorem add_fst_iff : (i.add path rule).1 = true ↔ (i.keyOf path, rule) ∉ i.entries := by
  rw [← not_contains_iff, ← Bool.not_eq_false, add_fst, Bool.not_eq_true]

theorem entries_add : (i.add path rule).2.entries = putPair i.entries (i.keyOf path, rule) := by
  rw [putPair]
  split
  · next h => rw [add_of_mem h]
  · next h =>
    rw [add_of_notMem h, entries, List.filterMap_append]
    rfl

theorem entries_remove : (i.remove path rule).2.entries = takePair i.entries (i.keyOf path, rule) := by
  rw [remove, takePair, entries, entries, List.filterMap_filter, List.filter_filterMap]
  congr 1
  funext l
  cases hl : l.pair? with
  | none => simp
  | some pair => by_cases hp : pair = (i.keyOf path, rule) <;> simp [hp, Option.filter]

theorem remove_fst_iff : (i.remove path rule).1 = true ↔ (i.keyOf path, rule) ∈ i.entries := by
  rw [remove, bne_iff_ne, ne_eq, List.length_filter_eq_length_iff, mem_entries_iff]
  simp

/-- The lines that do not hold a pair. -/
def without (pair : String × String) (lines : List IgnoreLine) : List IgnoreLine :=
  lines.filter fun l => l.pair? != some pair

theorem lines_remove : (i.remove path rule).2.lines = without (i.keyOf path, rule) i.lines := rfl

theorem without_of_notMem {pair : String × String} (h : pair ∉ i.entries) : without pair i.lines = i.lines := by
  rw [without, List.filter_eq_self]
  intro l hl
  rw [bne_iff_ne]
  exact fun hpair => h (mem_entries_iff.2 ⟨l, hl, hpair⟩)

theorem without_append_lineOf (lines : List IgnoreLine) :
    without (i.keyOf path, rule) (lines ++ [lineOf (i.keyOf path) rule]) = without (i.keyOf path, rule) lines := by
  rw [without, without, List.filter_append]
  simp [lineOf, IgnoreLine.pair?]

theorem without_add : without (i.keyOf path, rule) (i.add path rule).2.lines = without (i.keyOf path, rule) i.lines := by
  by_cases h : (i.keyOf path, rule) ∈ i.entries
  · rw [add_of_mem h]
  · rw [add_of_notMem h, without_append_lineOf]

theorem remove_add (h : (i.keyOf path, rule) ∉ i.entries) : ((i.add path rule).2.remove path rule).2 = i := by
  have hlines : ((i.add path rule).2.remove path rule).2.lines = i.lines := by
    rw [lines_remove, keyOf_add, without_add, without_of_notMem h]
  obtain ⟨hfile, hroot⟩ := file_add i path rule
  calc ((i.add path rule).2.remove path rule).2
      = ⟨(i.add path rule).2.file, (i.add path rule).2.root, ((i.add path rule).2.remove path rule).2.lines⟩ := rfl
    _ = i := by rw [hlines, hfile, hroot]

/-! ## Names of paths -/

/-- A path that is a form of an absolute path below the root, and does not start with a dot, names the same entry. -/
theorem keyOf_eq_of_same_join {form : Path} (hpath : path.isAbsolute = true)
    (hsame : path.same (i.root.join form) = true) (hdot : form.components.head? ≠ some .here) :
    i.keyOf form = i.keyOf path := by
  rw [Path.same, beq_iff_eq] at hsame
  have hjoin : (Path.relativeTo i.root (i.root.join form)).components =
      (Path.relativeTo i.root form).components := by
    by_cases hform : form.isAbsolute = true
    · rw [Path.join, if_pos hform]
    · rw [Bool.not_eq_true] at hform
      have habs := Path.isAbsolute_eq_of_same hsame ▸ hpath
      exact Path.components_relativeTo_join (Path.isAbsolute_of_isAbsolute_join hform habs) hform hdot
  rw [keyOf, keyOf, ← hjoin, ← Path.components_relativeTo_of_same i.root hpath hsame]

example : keyOf ⟨⟨"ignore"⟩, ⟨"/w"⟩, []⟩ ⟨"roles/a.yml"⟩ = keyOf ⟨⟨"ignore"⟩, ⟨"/w"⟩, []⟩ ⟨"/w//roles/./a.yml"⟩ := by
  decide +kernel

/-- What is below the root is named by its steps from there. -/
theorem keyOf_join (hroot : i.root.isAbsolute = true) {steps : List Path.Component} (h : ∀ c ∈ steps, c.Proper) :
    i.keyOf (i.root.join ⟨"/".intercalate (steps.map Path.Component.text)⟩) =
      "/".intercalate (steps.map Path.Component.text) := by
  have hsteps := Path.components_intercalate h
  have hrelative : (Path.mk ("/".intercalate (steps.map Path.Component.text))).isAbsolute = false := by
    rw [Bool.eq_false_iff, ne_eq, Path.isAbsolute_iff_root_mem, hsteps]
    exact fun hmem => h .root hmem
  have hdot : (Path.mk ("/".intercalate (steps.map Path.Component.text))).components.head? ≠ some .here := by
    rw [hsteps]
    exact fun hhead => h .here (List.mem_of_mem_head? hhead)
  have hbelow : i.root.components <+: (i.root.join ⟨"/".intercalate (steps.map Path.Component.text)⟩).components := by
    rw [Path.components_join hroot hrelative hdot]
    exact List.prefix_append _ _
  rw [keyOf, Path.components_relativeTo (Path.isAbsolute_join _ hroot) hbelow, Path.components_join hroot hrelative hdot,
    List.drop_left, hsteps]

/-- The name of a file below the root is a path that leads from there to the file. -/
theorem components_keyOf (hroot : i.root.isAbsolute = true) (hpath : path.isAbsolute = true)
    (hbelow : i.root.components <+: path.components) :
    i.root.components ++ (Path.mk (i.keyOf path)).components = path.components := by
  rw [keyOf, Path.components_intercalate (Path.proper_of_mem_relativeTo hroot hpath hbelow),
    Path.components_relativeTo hpath hbelow]
  exact List.prefix_iff_eq_append.1 hbelow

/-- How files are named that are below the root. -/
structure NamesFiles (i : IgnoreFile) : Prop where
  relative : ∀ steps : List Path.Component, (∀ c ∈ steps, c.Proper) →
    i.keyOf (i.root.join ⟨"/".intercalate (steps.map Path.Component.text)⟩) =
      "/".intercalate (steps.map Path.Component.text)
  /-- Two paths have one name exactly if they are spellings of one path. -/
  apart : ∀ path other : Path, path.isAbsolute = true → other.isAbsolute = true →
    i.root.components <+: path.components → i.root.components <+: other.components →
      (i.keyOf path = i.keyOf other ↔ path.same other = true)

theorem namesFiles (hroot : i.root.isAbsolute = true) : i.NamesFiles where
  relative _ h := keyOf_join hroot h
  apart path other hpath hother hbelow hbelow' := by
    rw [Path.same, beq_iff_eq]
    constructor
    · intro hkey
      rw [← components_keyOf hroot hpath hbelow, hkey, components_keyOf hroot hother hbelow']
    · intro hsame
      rw [keyOf, keyOf, Path.components_relativeTo_of_same i.root hpath hsame]

/-! ## Calls one after another -/

/-- A call on an ignore file. -/
inductive Call where
  | add (path : Path) (rule : String)
  | remove (path : Path) (rule : String)
  | contains (path : Path) (rule : String)

/-- What a call answers, and the file after it. -/
def call (i : IgnoreFile) : Call → Bool × IgnoreFile
  | .add path rule => i.add path rule
  | .remove path rule => i.remove path rule
  | .contains path rule => (i.contains path rule, i)

/-- The file after calls, one after another. -/
def calls (i : IgnoreFile) (cs : List Call) : IgnoreFile := cs.foldl (fun j c => (j.call c).2) i

/-- An ordered set after a call on a file whose paths are named by `key`. -/
def Call.onPairs (key : Path → String) (pairs : List (String × String)) : Call → List (String × String)
  | .add path rule => putPair pairs (key path, rule)
  | .remove path rule => takePair pairs (key path, rule)
  | .contains _ _ => pairs

/-- The pair that a call may put or take. -/
def Call.pair? (key : Path → String) : Call → Option (String × String)
  | .add path rule => some (key path, rule)
  | .remove path rule => some (key path, rule)
  | .contains _ _ => none

/-- Whether a line holds no pair that the calls may put or take. -/
def untouchedBy (key : Path → String) (cs : List Call) (l : IgnoreLine) : Bool :=
  cs.all fun c => l.pair?.isNone || l.pair? != c.pair? key

theorem keyOf_call (c : Call) : (i.call c).2.keyOf = i.keyOf := by
  funext other
  cases c with
  | add path rule => exact keyOf_add other
  | remove path rule => rfl
  | contains path rule => rfl

theorem entries_call (c : Call) : (i.call c).2.entries = c.onPairs i.keyOf i.entries := by
  cases c with
  | add path rule => exact entries_add
  | remove path rule => exact entries_remove
  | contains path rule => rfl

/-- Lines of which none holds the pair of a call are left by it as they were. -/
theorem filter_lines_call {keep : IgnoreLine → Bool} (c : Call)
    (h : ∀ l, keep l = true → l.pair? = none ∨ l.pair? ≠ c.pair? i.keyOf) :
    (i.call c).2.lines.filter keep = i.lines.filter keep := by
  have hwithout {pair : String × String} (hpair : c.pair? i.keyOf = some pair) (lines : List IgnoreLine) :
      (without pair lines).filter keep = lines.filter keep := by
    rw [without, List.filter_filter]
    congr 1
    funext l
    cases hl : keep l with
    | false => rfl
    | true =>
      rw [Bool.true_and, bne_iff_ne]
      rcases h l hl with hnone | hne
      · simp [hnone]
      · rwa [hpair] at hne
  cases c with
  | add path rule =>
    show (i.add path rule).2.lines.filter keep = _
    rw [← hwithout rfl, without_add, hwithout rfl]
  | remove path rule =>
    show (i.remove path rule).2.lines.filter keep = _
    rw [lines_remove, hwithout rfl]
  | contains path rule => rfl

theorem entries_calls (i : IgnoreFile) (cs : List Call) :
    (i.calls cs).entries = cs.foldl (Call.onPairs i.keyOf) i.entries ∧ (i.calls cs).keyOf = i.keyOf := by
  induction cs generalizing i with
  | nil => exact ⟨rfl, rfl⟩
  | cons c cs ih =>
    obtain ⟨hentries, hkey⟩ := ih (i.call c).2
    rw [keyOf_call, entries_call] at hentries
    rw [keyOf_call] at hkey
    exact ⟨hentries, hkey⟩

theorem untouchedBy_cons {key : Path → String} {c : Call} {cs : List Call} {l : IgnoreLine} :
    untouchedBy key (c :: cs) l = true ↔ (l.pair? = none ∨ l.pair? ≠ c.pair? key) ∧ untouchedBy key cs l = true := by
  rw [untouchedBy, List.all_cons, Bool.and_eq_true, Bool.or_eq_true, Option.isNone_iff_eq_none, bne_iff_ne]
  rfl

theorem filter_lines_calls (i : IgnoreFile) (cs : List Call) :
    (i.calls cs).lines.filter (untouchedBy i.keyOf cs) = i.lines.filter (untouchedBy i.keyOf cs) := by
  -- Which lines count stays the same while the calls become fewer.
  have hcalls {keep : IgnoreLine → Bool} (cs : List Call) :
      ∀ i : IgnoreFile, (∀ l, keep l = true → untouchedBy i.keyOf cs l = true) →
        (i.calls cs).lines.filter keep = i.lines.filter keep := by
    induction cs with
    | nil => exact fun i h => rfl
    | cons c cs ih =>
      intro i h
      rw [← filter_lines_call c fun l hl => (untouchedBy_cons.1 (h l hl)).1]
      apply ih
      intro l hl
      rw [keyOf_call]
      exact (untouchedBy_cons.1 (h l hl)).2
  exact hcalls cs i fun l hl => hl

/-- What a call with a path and a rule answers and leaves when the entries of a file are an ordered set. -/
structure StepsAsSet (i : IgnoreFile) (path : Path) (rule : String) : Prop where
  contains_iff : i.contains path rule = true ↔ (i.keyOf path, rule) ∈ i.entries
  /-- An entry that was not there is added, in a line of its own after the others. -/
  add_iff : (i.add path rule).1 = true ↔ (i.keyOf path, rule) ∉ i.entries
  added : (i.add path rule).1 = true →
    (i.add path rule).2 = { i with lines := i.lines ++ [lineOf (i.keyOf path) rule] }
  not_added : (i.add path rule).1 = false → (i.add path rule).2 = i
  /-- An entry that was there is removed, from every line that holds it and from no other. -/
  remove_iff : (i.remove path rule).1 = true ↔ (i.keyOf path, rule) ∈ i.entries
  removed : (i.keyOf path, rule) ∉ (i.remove path rule).2.entries
  not_removed : (i.remove path rule).1 = false → (i.remove path rule).2 = i
  /-- The lines without the entry are the same, in the same order. -/
  add_keeps : without (i.keyOf path, rule) (i.add path rule).2.lines = without (i.keyOf path, rule) i.lines
  remove_keeps : (i.remove path rule).2.lines = without (i.keyOf path, rule) i.lines
  /-- Other entries are there exactly if they were there before. -/
  others : ∀ other otherRule, (i.keyOf other, otherRule) ≠ (i.keyOf path, rule) →
    (i.add path rule).2.contains other otherRule = i.contains other otherRule ∧
      (i.remove path rule).2.contains other otherRule = i.contains other otherRule
  /-- Adding an entry that was not there and removing it again restores the file, and with it its text. -/
  undone : (i.keyOf path, rule) ∉ i.entries → ((i.add path rule).2.remove path rule).2 = i
  /-- An absolute path and its form below the root are the same in every call. -/
  forms : ∀ form : Path, path.isAbsolute = true → path.same (i.root.join form) = true →
    form.components.head? ≠ some .here →
      i.contains form rule = i.contains path rule ∧ i.add form rule = i.add path rule ∧
        i.remove form rule = i.remove path rule

theorem stepsAsSet (i : IgnoreFile) (path : Path) (rule : String) : StepsAsSet i path rule where
  contains_iff := contains_iff
  add_iff := add_fst_iff
  added := by
    intro h
    rw [add_of_notMem (add_fst_iff.1 h)]
  not_added := by
    intro h
    rw [add_of_contains (add_fst.1 h)]
  remove_iff := remove_fst_iff
  removed := by
    rw [entries_remove, takePair]
    simp
  not_removed := by
    intro h
    have hlines : (i.remove path rule).2.lines = i.lines := by
      rw [lines_remove, without_of_notMem]
      rw [← remove_fst_iff, h]
      exact Bool.false_ne_true
    calc (i.remove path rule).2 = { i with lines := (i.remove path rule).2.lines } := rfl
      _ = i := by rw [hlines]
  add_keeps := without_add
  remove_keeps := lines_remove
  others := by
    intro other otherRule hne
    rw [contains, contains, contains, keyOf_add, keyOf_remove, entries_add, entries_remove]
    constructor
    · rw [putPair]
      split
      · rfl
      · simp [hne]
    · rw [Bool.eq_iff_iff, List.contains_iff_mem, List.contains_iff_mem, takePair, List.mem_filter]
      simp [hne]
  undone := remove_add
  forms := by
    intro form hpath hsame hdot
    have hkey := keyOf_eq_of_same_join hpath hsame hdot
    have hcontains : i.contains form rule = i.contains path rule := by rw [contains, contains, hkey]
    refine ⟨hcontains, ?_, ?_⟩
    · rw [add, add, hcontains, hkey]
    · rw [remove, remove, hkey]

/-- After any calls on an ignore file its entries are those of an ordered set, the lines that hold none of the entries
that were put or taken are as they were, and one more call does what it does on an ordered set. The files below an
absolute root are told apart. -/
theorem calls_act_as_ordered_set (i : IgnoreFile) (cs : List Call) :
    (i.calls cs).entries = cs.foldl (Call.onPairs i.keyOf) i.entries ∧
      (i.calls cs).lines.filter (untouchedBy i.keyOf cs) = i.lines.filter (untouchedBy i.keyOf cs) ∧
      (i.calls cs).keyOf = i.keyOf ∧ (∀ path rule, StepsAsSet (i.calls cs) path rule) ∧
      (i.root.isAbsolute = true → i.NamesFiles) := by
  obtain ⟨hentries, hkey⟩ := entries_calls i cs
  exact ⟨hentries, filter_lines_calls i cs, hkey, stepsAsSet (i.calls cs), namesFiles⟩

end LintHub.IgnoreFile
