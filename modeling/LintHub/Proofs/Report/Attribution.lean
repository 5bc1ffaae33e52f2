import LintHub.Proofs.Report.HookLines
import LintHub.Proofs.Report.Pairing

/-!
# Whose finding, and which message

The hook of a finding in a transcript and the free text in its message can be told from the lines before it alone: the
hook is the one that is named nearest before it, and the text stands behind the nearest line that clears it.

* `HookLine.of_forms` : a line that names a hook, a line of free text, and all others.
* `Transcript.blockOf` : the block of a line, told from the lines before it. `Transcript.findingsFrom_blockOf` : the
  reader, which carries a block from line to line, finds the same.
* `Transcript.findingsFrom_congr` : lines that start with a run of a hook are read alike in every block.
* `Transcript.findings_local` : all of this for a transcript.
-/

namespace LintHub

/-! ## Lines -/

namespace HookLine

open Transcript

/-- The hook that the line names. -/
def name? : HookLine → Option (List Char)
  | hook id => some id
  | _ => none

/-- The words of a line of free text. -/
def words? : HookLine → Option (List Char)
  | text words => some words
  | _ => none

/-- Whether free text before the line belongs to no message after it. -/
def clears : HookLine → Bool
  | hook _ => true
  | status => true
  | located .. => true
  | _ => false

/-- Whether the line says something of a file. -/
def reports : HookLine → Bool
  | fixing _ => true
  | located .. => true
  | placed .. => true
  | filed .. => true
  | _ => false

/-- Whether the line is a separator or metadata. -/
def isIdle : HookLine → Bool
  | separator => true
  | metadata => true
  | _ => false

theorem forms_of_file {l : List Char} {line : HookLine}
    (h : (located? l).or ((placed? l).or (filed? l)) = some line) : line.name? = none ∧ line.words? = none := by
  rcases Option.or_eq_some_iff.1 h with hlocated | ⟨-, h⟩
  · simp only [located?, Option.bind_eq_bind, Option.bind_eq_some_iff, Option.some.injEq] at hlocated
    obtain ⟨_, -, _, -, _, -, _, -, rfl⟩ := hlocated
    exact ⟨rfl, rfl⟩
  · rcases Option.or_eq_some_iff.1 h with hplaced | ⟨-, hfiled⟩
    · obtain ⟨_, -, rfl⟩ := Option.map_eq_some_iff.1 hplaced
      exact ⟨rfl, rfl⟩
    · obtain ⟨_, -, rfl⟩ := Option.map_eq_some_iff.1 hfiled
      exact ⟨rfl, rfl⟩

theorem of_forms (l : List Char) :
    (∃ id, of l = .hook id ∧ hookId? l = some id) ∨ of l = .text l ∨
      (of l).name? = none ∧ (of l).words? = none := by
  unfold of
  split
  · exact .inr (.inr ⟨rfl, rfl⟩)
  · split
    · next id hid => exact .inl ⟨id, rfl, hid⟩
    · split
      · exact .inr (.inr ⟨rfl, rfl⟩)
      · split
        · exact .inr (.inr ⟨rfl, rfl⟩)
        · split
          · exact .inr (.inr ⟨rfl, rfl⟩)
          · cases hfile : (located? l).or ((placed? l).or (filed? l)) with
            | none => exact .inr (.inl rfl)
            | some line => exact .inr (.inr (forms_of_file hfile))

/-- The name of a hook is a word. -/
theorem isWord_of_name? {l id : List Char} (h : (of l).name? = some id) : Text.IsWord id := by
  rcases of_forms l with ⟨id', hof, hid⟩ | hof | ⟨hof, -⟩
  · rw [hof, name?, Option.some.injEq] at h
    subst h
    simp only [hookId?, Option.bind_eq_bind, Option.bind_eq_some_iff, Option.some.injEq] at hid
    obtain ⟨_, -, _, -, ⟨id, _⟩, hrun, rfl⟩ := hid
    obtain ⟨-, hne, hink⟩ := Text.run?_eq_some hrun
    refine ⟨hne, ?_⟩
    intro c hc
    simpa [Columns.isInk] using hink c hc
  · rw [hof] at h
    cases h
  · rw [hof] at h
    cases h

theorem eq_of_words? {l words : List Char} (h : (of l).words? = some words) : words = l := by
  rcases of_forms l with ⟨id, hof, -⟩ | hof | ⟨-, hof⟩
  · rw [hof] at h
    cases h
  · rw [hof, HookLine.words?, Option.some.injEq] at h
    exact h.symm
  · rw [hof] at h
    cases h

end HookLine

namespace Transcript

open HookLine (name? words? clears reports isIdle)

/-! ## Blocks told from the lines before -/

/-- The hook that is named nearest at the end of the lines. -/
def hookOf (before : List HookLine) : Option (List Char) := before.reverse.findSome? name?

/-- The free text behind the last line that clears it. -/
def contextOf (before : List HookLine) : List (List Char) :=
  (before.reverse.takeWhile fun line => !line.clears).reverse.filterMap words?

/-- The block in which the line after these lines stands. -/
def blockOf (before : List HookLine) : Block := ⟨hookOf before, contextOf before⟩

variable {root : Path} {tool : Tool} {before a b : List HookLine} {line : HookLine}

theorem hookOf_append_singleton (before : List HookLine) (line : HookLine) :
    hookOf (before ++ [line]) = line.name?.or (hookOf before) := by
  unfold hookOf
  rw [List.reverse_append, List.reverse_singleton, List.singleton_append, List.findSome?_cons]
  cases line.name? <;> rfl

theorem contextOf_append_singleton (before : List HookLine) (line : HookLine) :
    contextOf (before ++ [line]) = if line.clears then [] else contextOf before ++ line.words?.toList := by
  unfold contextOf
  rw [List.reverse_append, List.reverse_singleton, List.singleton_append, List.takeWhile_cons]
  cases line.clears with
  | true => rfl
  | false =>
    rw [if_pos (by decide), List.reverse_cons, List.filterMap_append, if_neg (by decide), List.filterMap_cons]
    cases line.words? <;> rfl

theorem hookOf_of_nearest {id : List Char} (hb : ∀ l ∈ b, l.name? = none) :
    hookOf (a ++ .hook id :: b) = some id := by
  have hnone : b.reverse.findSome? name? = none :=
    List.findSome?_eq_none_iff.2 fun l hl => hb l (List.mem_reverse.1 hl)
  rw [hookOf, List.reverse_append, List.reverse_cons, List.append_assoc, List.findSome?_append, hnone]
  rfl

theorem hookOf_eq_none (h : ∀ l ∈ before, l.name? = none) : hookOf before = none :=
  List.findSome?_eq_none_iff.2 fun l hl => h l (List.mem_reverse.1 hl)

theorem takeWhile_reverse (hb : ∀ l ∈ b, l.clears = false) (front : List HookLine) :
    (b.reverse ++ front).takeWhile (fun l => !l.clears) = b.reverse ++ front.takeWhile fun l => !l.clears := by
  apply List.takeWhile_append_of_pos
  intro l hl
  rw [hb l (List.mem_reverse.1 hl)]
  rfl

theorem contextOf_of_nearest (hline : line.clears = true) (hb : ∀ l ∈ b, l.clears = false) :
    contextOf (a ++ line :: b) = b.filterMap words? := by
  rw [contextOf, List.reverse_append, List.reverse_cons, List.append_assoc, takeWhile_reverse hb,
    List.singleton_append, List.takeWhile_cons, hline]
  simp

theorem contextOf_of_forall (h : ∀ l ∈ before, l.clears = false) : contextOf before = before.filterMap words? := by
  have hall := takeWhile_reverse h []
  rw [List.append_nil, List.takeWhile_nil, List.append_nil] at hall
  rw [contextOf, hall, List.reverse_reverse]

theorem exists_of_mem_contextOf {words : List Char} (h : words ∈ contextOf before) :
    ∃ l ∈ before, l.words? = some words := by
  obtain ⟨l, hl, hwords⟩ := List.mem_filterMap.1 h
  exact ⟨l, List.mem_reverse.1 ((List.takeWhile_prefix _).subset (List.mem_reverse.1 hl)), hwords⟩

theorem exists_of_hookOf {id : List Char} (h : hookOf before = some id) : ∃ l ∈ before, l.name? = some id := by
  obtain ⟨l, hl, hname⟩ := List.exists_of_findSome?_eq_some h
  exact ⟨l, List.mem_reverse.1 hl, hname⟩

/-! ## The reader -/

theorem step_blockOf (root : Path) (tool : Tool) (before : List HookLine) (line : HookLine) :
    (step root tool (blockOf before) line).1 = blockOf (before ++ [line]) := by
  rw [blockOf, blockOf, hookOf_append_singleton, contextOf_append_singleton]
  cases line <;> simp [step, name?, words?, clears]

theorem findingsFrom_cons (root : Path) (tool : Tool) (block : Block) (line : HookLine) (lines : List HookLine) :
    findingsFrom root tool block (line :: lines) =
      (step root tool block line).2.toList ++ findingsFrom root tool (step root tool block line).1 lines :=
  rfl

theorem findingsFrom_append (root : Path) (tool : Tool) (before a b : List HookLine) :
    findingsFrom root tool (blockOf before) (a ++ b) =
      findingsFrom root tool (blockOf before) a ++ findingsFrom root tool (blockOf (before ++ a)) b := by
  induction a generalizing before with
  | nil => rw [List.append_nil, findingsFrom, List.nil_append, List.nil_append]
  | cons line a ih =>
    rw [List.cons_append, findingsFrom_cons, findingsFrom_cons, step_blockOf, ih, List.append_assoc, List.append_assoc,
      List.singleton_append]

/-- What line number `i` says in the block of the lines before it. -/
def sayAt (root : Path) (tool : Tool) (lines : List HookLine) (i : Nat) : Option Finding :=
  lines[i]?.bind fun line => (step root tool (blockOf (lines.take i)) line).2

theorem findingsFrom_blockOf (root : Path) (tool : Tool) (before lines : List HookLine) :
    findingsFrom root tool (blockOf before) lines =
      (List.range lines.length).filterMap fun i => sayAt root tool (before ++ lines) (before.length + i) := by
  induction lines generalizing before with
  | nil => rfl
  | cons line lines ih =>
    have hfirst : sayAt root tool (before ++ line :: lines) (before.length + 0) =
        (step root tool (blockOf before) line).2 := by
      simp [sayAt]
    have hlater (i : Nat) : sayAt root tool (before ++ [line] ++ lines) ((before ++ [line]).length + i) =
        sayAt root tool (before ++ line :: lines) (before.length + (i + 1)) := by
      rw [List.append_assoc, List.singleton_append, List.length_append, List.length_singleton, Nat.add_assoc,
        Nat.add_comm 1 i]
    rw [findingsFrom_cons, step_blockOf, ih, List.length_cons, List.range_succ_eq_map, List.filterMap_cons, hfirst,
      List.filterMap_map]
    simp only [hlater, Function.comp_def]
    cases (step root tool (blockOf before) line).2 <;> rfl

theorem isSome_step (root : Path) (tool : Tool) (block : Block) (line : HookLine) :
    (step root tool block line).2.isSome = line.reports := by
  cases line <;> rfl

theorem rule_of_step {block : Block} {f : Finding} (h : (step root tool block line).2 = some f) :
    f.rule = Finding.nonempty block.rule := by
  cases line with
  | fixing | located | placed | filed =>
    obtain rfl := Option.some.inj h
    simp only [Finding.ranked, Finding.placed, Finding.rule_new]
  | _ => cases h

theorem message_of_step_located {block : Block} {f : Finding} {path number : List Char} {column : Option (List Char)}
    (h : (step root tool block (.located path number column)).2 = some f) :
    f.message = Finding.nonempty block.message := by
  obtain rfl := Option.some.inj h
  simp only [Finding.ranked, Finding.placed, Finding.message_new]

/-! ## Runs put behind each other -/

/-- The first line that is no separator and no metadata names a hook. -/
def StartsRun (lines : List HookLine) : Prop :=
  ∀ line ∈ lines.find? fun line => !line.isIdle, line.name?.isSome = true

/-- What was read before a hook's name does not matter behind it. -/
theorem findingsFrom_congr {lines : List HookLine} (h : StartsRun lines) (block block' : Block) :
    findingsFrom root tool block lines = findingsFrom root tool block' lines := by
  induction lines with
  | nil => rfl
  | cons line lines ih =>
    cases line with
    | separator => exact ih h
    | metadata => exact ih h
    | hook id => rfl
    | _ => exact absurd (h _ rfl) (by simp [name?])

/-! ## Transcripts -/

/-- What the lines of a transcript are. -/
def linesOf (s : List Char) : List HookLine := (Columns.inkLines s).map HookLine.of

/-- The message of a located error behind some free text. -/
def errorText (texts : List (List Char)) : String :=
  if texts = [] then "YAML syntax error" else " ".intercalate (texts.map String.ofList)

theorem message_eq_errorText (block : Block) : block.message = errorText block.context := by
  have hjoin : String.ofList (block.context.intersperse [' ']).flatten =
      " ".intercalate (block.context.map String.ofList) := by
    rw [← String.toList_inj, String.toList_ofList, String.toList_intercalate, List.map_map]
    simp [Function.comp_def, List.intercalate]
  rw [Block.message, errorText, hjoin]
  simp only [List.isEmpty_iff]

theorem isPhrase_of_mem_inkLines {s l : List Char} (h : l ∈ Columns.inkLines s) :
    Text.IsPhrase (String.ofList l) := by
  have htight := Columns.tight_of_mem_inkLines h
  obtain ⟨hmem, hne⟩ := List.mem_filter.1 h
  obtain ⟨line, hline, rfl⟩ := List.mem_map.1 hmem
  apply Text.isPhrase_of_tight
  · simpa using hne
  · rw [String.toList_ofList]
    intro hfeed
    exact Text.feed_notMem_of_mem_lines hline ((List.dropWhile_suffix _).subset ((Text.trimEnd_prefix _).subset hfeed))
  · rwa [String.toList_ofList]

theorem isPhrase_errorText {texts : List (List Char)} (h : ∀ t ∈ texts, Text.IsPhrase (String.ofList t)) :
    Text.IsPhrase (errorText texts) := by
  unfold errorText
  split
  · decide
  · next hne => exact Text.isPhrase_intercalate (by simpa using hne) (List.forall_mem_map.2 h)

/-- The rule of a finding is the name of its block's hook. -/
theorem rule_of_sayAt {s : List Char} {i : Nat} {f : Finding} (h : sayAt root tool (linesOf s) i = some f) :
    f.rule = ((hookOf ((linesOf s).take i)).map String.ofList).getD Rule.unknown := by
  obtain ⟨line, -, hstep⟩ := Option.bind_eq_some_iff.1 h
  rw [rule_of_step hstep]
  show Finding.nonempty (((hookOf ((linesOf s).take i)).map String.ofList).getD Rule.unknown) = _
  cases hhook : hookOf ((linesOf s).take i) with
  | none => exact Finding.nonempty_eq_self (by decide)
  | some id =>
    obtain ⟨l, hl, hname⟩ := exists_of_hookOf hhook
    obtain ⟨t, -, rfl⟩ := List.mem_map.1 (List.mem_of_mem_take hl)
    obtain ⟨hne, hink⟩ := HookLine.isWord_of_name? hname
    apply Finding.nonempty_eq_self
    apply Text.isPhrase_of_ink
    · simpa using hne
    · simpa using hink

/-- The message of a located error is the free text of its block. -/
theorem message_of_sayAt {s : List Char} {i : Nat} {f : Finding} {path number : List Char}
    {column : Option (List Char)} (hline : (linesOf s)[i]? = some (.located path number column))
    (h : sayAt root tool (linesOf s) i = some f) : f.message = errorText (contextOf ((linesOf s).take i)) := by
  rw [sayAt, hline, Option.bind_some] at h
  rw [message_of_step_located h, message_eq_errorText]
  apply Finding.nonempty_eq_self
  apply isPhrase_errorText
  intro words hwords
  obtain ⟨l, hl, hof⟩ := exists_of_mem_contextOf hwords
  obtain ⟨t, ht, rfl⟩ := List.mem_map.1 (List.mem_of_mem_take hl)
  obtain rfl := HookLine.eq_of_words? hof
  exact isPhrase_of_mem_inkLines ht

/-- The findings of a transcript are told line by line, at most one of each: the rule is the hook that is named nearest
before the line, and a located error has the free text behind the nearest line that clears it as its message. So a
transcript that starts with a run of a hook is read alike behind every other. -/
theorem findings_local (root : Path) (tool : Tool) (s : List Char) :
    findings root tool s = (List.range (linesOf s).length).filterMap (sayAt root tool (linesOf s)) ∧
    (∀ i, (sayAt root tool (linesOf s) i).isSome = (linesOf s)[i]?.any reports) ∧
    (∀ i f, sayAt root tool (linesOf s) i = some f →
      (∀ a id b, (linesOf s).take i = a ++ .hook id :: b → (∀ l ∈ b, l.name? = none) → f.rule = String.ofList id) ∧
      ((∀ l ∈ (linesOf s).take i, l.name? = none) → f.rule = Rule.unknown)) ∧
    (∀ i f path number column, (linesOf s)[i]? = some (.located path number column) →
      sayAt root tool (linesOf s) i = some f →
      (∀ a l b, (linesOf s).take i = a ++ l :: b → l.clears = true → (∀ l ∈ b, l.clears = false) →
        f.message = errorText (b.filterMap words?)) ∧
      ((∀ l ∈ (linesOf s).take i, l.clears = false) →
        f.message = errorText (((linesOf s).take i).filterMap words?))) ∧
    ∀ t, StartsRun (linesOf t) →
      findings root tool (s ++ '\n' :: t) = findings root tool s ++ findings root tool t := by
  refine ⟨?_, ?_, ?_, ?_, ?_⟩
  · have hread := findingsFrom_blockOf root tool [] (linesOf s)
    simp only [List.nil_append, List.length_nil, Nat.zero_add] at hread
    exact hread
  · intro i
    rw [sayAt]
    cases (linesOf s)[i]? with
    | none => rfl
    | some line => exact isSome_step root tool _ line
  · intro i f hf
    rw [rule_of_sayAt hf]
    constructor
    · intro a id b hbefore hb
      rw [hbefore, hookOf_of_nearest hb]
      rfl
    · intro hnone
      rw [hookOf_eq_none hnone]
      rfl
  · intro i f path number column hline hf
    rw [message_of_sayAt hline hf]
    constructor
    · intro a l b hbefore hl hb
      rw [hbefore, contextOf_of_nearest hl hb]
    · intro hnone
      rw [contextOf_of_forall hnone]
  · intro t ht
    have hlines : (Columns.inkLines (s ++ '\n' :: t)).map HookLine.of = linesOf s ++ linesOf t := by
      rw [Columns.inkLines_append_feed_append, List.map_append]
      rfl
    rw [findings, hlines, show Block.start = blockOf [] from rfl, findingsFrom_append, findingsFrom_congr ht _ .start]
    rfl

/-- Text before the first hook, metadata among the text of an error, and a second error without text. -/
def noisyTranscript : List Char :=
  ("stray words\n- hook id: check-yaml\n----\nwhile parsing\n- exit code: 1\ndid not find key\n" ++
    "in \"a.yml\", line 3\nb.yml:1:2: c\nin \"d.yml\", line 4").toList

/-- A run behind a separator and metadata. -/
def laterRun : List Char := "====\n- exit code: 0\n- hook id: end-of-file-fixer\nFixing e.yml".toList

theorem findings_local_noisyTranscript :
    ∃ f g, sayAt ⟨"/w"⟩ .preCommit (linesOf noisyTranscript) 6 = some f ∧
      sayAt ⟨"/w"⟩ .preCommit (linesOf noisyTranscript) 8 = some g ∧
      (f.rule, f.message) = ("check-yaml", "while parsing did not find key") ∧
      (g.rule, g.message) = ("check-yaml", "YAML syntax error") ∧ StartsRun (linesOf laterRun) ∧
      findings ⟨"/w"⟩ .preCommit (noisyTranscript ++ '\n' :: laterRun) =
        findings ⟨"/w"⟩ .preCommit noisyTranscript ++ findings ⟨"/w"⟩ .preCommit laterRun := by
  obtain ⟨-, hsome, hrule, hmessage, happend⟩ := findings_local ⟨"/w"⟩ .preCommit noisyTranscript
  have hlines : linesOf noisyTranscript =
      [.text "stray words".toList, .hook "check-yaml".toList, .separator, .text "while parsing".toList, .metadata,
        .text "did not find key".toList, .located "a.yml".toList ['3'] none,
        .placed "b.yml".toList ['1'] ['2'] ['c'], .located "d.yml".toList ['4'] none] := by
    decide +kernel
  have hlater : linesOf laterRun =
      [.separator, .metadata, .hook "end-of-file-fixer".toList, .fixing "e.yml".toList] := by
    decide +kernel
  have hstarts : StartsRun (linesOf laterRun) := by
    rw [hlater]
    rintro line ⟨⟩
    rfl
  obtain ⟨f, hf⟩ : ∃ f, sayAt ⟨"/w"⟩ .preCommit (linesOf noisyTranscript) 6 = some f := by
    rw [← Option.isSome_iff_exists, hsome, hlines]
    rfl
  obtain ⟨g, hg⟩ : ∃ g, sayAt ⟨"/w"⟩ .preCommit (linesOf noisyTranscript) 8 = some g := by
    rw [← Option.isSome_iff_exists, hsome, hlines]
    rfl
  have hfrule := (hrule 6 f hf).1
  have hgrule := (hrule 8 g hg).1
  have hfmessage := (hmessage 6 f _ _ _ (by rw [hlines]; rfl) hf).1
  have hgmessage := (hmessage 8 g _ _ _ (by rw [hlines]; rfl) hg).1
  rw [hlines] at hfrule hgrule hfmessage hgmessage
  refine ⟨f, g, hf, hg, ?_, ?_, hstarts, happend laterRun hstarts⟩
  · rw [hfrule [.text "stray words".toList] "check-yaml".toList _ rfl (by decide),
      hfmessage [.text "stray words".toList] (.hook "check-yaml".toList) _ rfl rfl (by decide)]
    decide
  · rw [hgrule [.text "stray words".toList] "check-yaml".toList _ rfl (by decide),
      hgmessage [.text "stray words".toList, .hook "check-yaml".toList, .separator, .text "while parsing".toList,
        .metadata, .text "did not find key".toList] (.located "a.yml".toList ['3'] none) _ rfl rfl (by decide)]
    decide

end Transcript

end LintHub
