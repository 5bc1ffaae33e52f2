import LintHub.Proofs.Finding.Sound
import LintHub.Proofs.Report.HookLines

/-!
# What hooks print

A transcript is a sequence of runs of hooks, each with its own name, its metadata and what the hook said of files.

* `Transcript.StatusLine`, `Transcript.Note`, `Transcript.Record` : the parts of a run with the lines that are printed
  of them. `Record.finding` is what a record says, `Record.rule_finding` : this has the hook as its rule and the
  record's message as it stands.
* `Transcript.HookRun` : a run, and `Transcript.HookRun.Valid` : what its parts may be.
* `Transcript.feed_notMem_of_mem_lines` : every line is one line.
-/

namespace LintHub.Transcript

open Text (IsPhrase IsWord isBlank)

/-! ## What hooks print -/

/-- The line that tells how a hook ended. -/
structure StatusLine where
  name : String
  dots : Nat
  reason : Option String
  outcome : String
deriving DecidableEq

/-- What a line of a run says that is about no file. -/
inductive Note where
  | metadata (mark rest : String)
  | blank (spaces : String)
  | separator (marks : String)
deriving DecidableEq

/-- What a hook says of a file. -/
inductive Record where
  | fixing (path : String)
  | located (context : List String) (path : String) (line : Nat) (column : Option Nat)
  | placed (path : String) (line column : Nat) (message : String)
  | filed (stem extension message : String)
deriving DecidableEq

/-- A part of a run. -/
inductive Part where
  | note (n : Note)
  | record (r : Record)
deriving DecidableEq

/-- A hook's part of a transcript. -/
structure HookRun where
  status : Option StatusLine
  id : String
  parts : List Part
deriving DecidableEq

namespace StatusLine

/-- The dots, and a reason in parentheses. -/
def leader (l : StatusLine) : String :=
  String.ofList (List.replicate l.dots '.') ++ l.reason.elim "" fun reason => "(" ++ reason ++ ")"

def text (l : StatusLine) : String := l.name ++ (l.leader ++ l.outcome)

/-- A status line has a name of any kind, dots and one of the outcomes. -/
structure Valid (l : StatusLine) : Prop where
  name : '\n' ∉ l.name.toList
  dots : 3 ≤ l.dots
  reason : ∀ reason ∈ l.reason, '\n' ∉ reason.toList
  outcome : l.outcome ∈ outcomes

theorem endsWithLeader_leader {l : StatusLine} (h : l.Valid) (front : List Char) :
    endsWithLeader (front ++ l.leader.toList) = true := by
  rw [leader]
  cases l.reason with
  | none =>
    have hdots := endsWithLeader_dots front h.dots
    simpa using hdots
  | some reason =>
    have hreason := endsWithLeader_reason front reason.toList h.dots
    simpa using hreason

theorem isPhrase_leader_outcome {l : StatusLine} (h : l.Valid) : IsPhrase (l.leader ++ l.outcome) := by
  have houtcome : ∀ word ∈ outcomes, IsPhrase word := by decide
  obtain ⟨n, hn⟩ : ∃ n, l.dots = n + 1 := ⟨l.dots - 1, by have := h.dots; omega⟩
  have hhead : l.leader.toList.head? = some '.' := by simp [leader, hn, List.replicate_succ]
  have hne : l.leader ≠ "" := by
    intro hempty
    rw [hempty] at hhead
    cases hhead
  have hfeed : '\n' ∉ l.leader.toList := by
    have hreason := h.reason
    rw [leader]
    cases hcase : l.reason with
    | none => simp [List.mem_replicate]
    | some reason => simp [List.mem_replicate, hreason reason hcase]
  refine Text.isPhrase_append hne (Text.trimStart_eq_self fun c hc => ?_) hfeed (houtcome _ h.outcome)
  rw [hhead, Option.mem_some_iff] at hc
  subst hc
  decide

/-- A status line ends like one, also without its outer blanks. -/
theorem isStatus_trim_text {l : StatusLine} (h : l.Valid) :
    isStatus (Text.trim l.text.toList) = true ∧ Text.trim l.text.toList ≠ [] := by
  have hend := isPhrase_leader_outcome h
  obtain ⟨front, hfront⟩ := Text.exists_trim_append l.name.toList hend.toList_ne hend.tight
  rw [text, String.toList_append, hfront]
  constructor
  · rw [String.toList_append, ← List.append_assoc]
    exact isStatus_iff.2 ⟨l.outcome, h.outcome, _, rfl, endsWithLeader_leader h front⟩
  · exact List.append_ne_nil_of_right_ne_nil front hend.toList_ne

end StatusLine

namespace Note

def text : Note → String
  | metadata mark rest => "- " ++ mark ++ rest
  | blank spaces => spaces
  | separator marks => marks

def Valid : Note → Prop
  | metadata mark rest => mark ∈ metadataMarks ∧ '\n' ∉ rest.toList
  | blank spaces => ∀ c ∈ spaces.toList, isBlank c = true ∧ c ≠ '\n'
  | separator marks => marks ≠ "" ∧ marks.toList.all isRule = true

theorem feed_notMem_text {n : Note} (h : n.Valid) : '\n' ∉ n.text.toList := by
  cases n with
  | metadata mark rest =>
    have hmarks : ∀ mark ∈ metadataMarks, '\n' ∉ ("- " ++ mark).toList := by decide
    rw [text, String.toList_append, List.mem_append, not_or]
    exact ⟨hmarks mark h.1, h.2⟩
  | blank spaces => exact fun hfeed => (h _ hfeed).2 rfl
  | separator marks => exact fun hfeed => absurd (List.all_eq_true.1 h.2 _ hfeed) (by decide)

end Note

namespace Record

/-- The free text in front of the line that names the file. -/
def context : Record → List String
  | located context _ _ _ => context
  | _ => []

/-- The line that names the file. -/
def line : Record → String
  | fixing path => "Fixing " ++ path
  | located _ path line column =>
    "in \"" ++ path ++ "\", line " ++ toString line ++ column.elim "" fun column => ", column " ++ toString column
  | placed path line column message => path ++ ":" ++ toString line ++ ":" ++ toString column ++ ": " ++ message
  | filed stem extension message => stem ++ extension ++ ": " ++ message

/-- All lines. -/
def lines (r : Record) : List String := r.context ++ [r.line]

/-- The message of the record under a hook. -/
def message (id : String) : Record → String
  | fixing _ => fixingMessage (some id.toList)
  | located context _ _ _ => if context = [] then "YAML syntax error" else " ".intercalate context
  | placed _ _ _ message => message
  | filed _ _ message => message

/-- The finding that the record says under a hook. -/
def finding (root : Path) (tool : Tool) (id : String) (r : Record) : Finding :=
  match r with
  | fixing path =>
    { Finding.new (root.resolveNormal path) id (r.message id) tool with severity := .info, fixable := true }
  | located _ path line column =>
    { Finding.new (root.resolveNormal path) id (r.message id) tool with
      line := Finding.placeOf line, column := column.elim 1 Finding.placeOf, severity := .error }
  | placed path line column _ =>
    { Finding.new (root.resolveNormal path) id (r.message id) tool with
      line := Finding.placeOf line, column := Finding.placeOf column, severity := .warning }
  | filed stem extension _ =>
    { Finding.new (root.resolveNormal (stem ++ extension)) id (r.message id) tool with severity := .warning }

/-- A path that stands before a colon: no blank and no colon inside of it, and no hyphen at its start. -/
structure IsBarePath (path : String) : Prop where
  ne : path ≠ ""
  chars : path.toList.all isPathChar = true
  hyphen : path.toList.head? ≠ some '-'

/-- What each part of a record may be. -/
def Valid : Record → Prop
  | fixing path => IsPhrase path
  | located context path _ _ => (∀ t ∈ context, IsFreeText t) ∧ path ≠ "" ∧ '"' ∉ path.toList ∧ '\n' ∉ path.toList
  | placed path _ _ message => IsBarePath path ∧ IsPhrase message
  | filed stem extension message => IsBarePath stem ∧ extension ∈ extensions ∧ IsPhrase message

end Record

namespace Part

def lines : Part → List String
  | note n => [n.text]
  | record r => r.lines

def record? : Part → Option Record
  | note _ => none
  | record r => some r

def Valid : Part → Prop
  | note n => n.Valid
  | record r => r.Valid

end Part

namespace HookRun

/-- The lines of a run: its status if it is printed, the hook's name, and the parts. -/
def lines (run : HookRun) : List String :=
  (run.status.map StatusLine.text).toList ++ ("- hook id: " ++ run.id) :: run.parts.flatMap Part.lines

/-- What the run says of files, with the hook's name. -/
def records (run : HookRun) : List (String × Record) := (run.parts.filterMap Part.record?).map fun r => (run.id, r)

/-- A run's status and parts are such lines, and its name is a word. -/
structure Valid (run : HookRun) : Prop where
  status : ∀ l ∈ run.status, l.Valid
  id : IsWord run.id.toList
  parts : ∀ p ∈ run.parts, p.Valid

end HookRun

/-! ## Lines of records -/

namespace Record

theorem toList_line_located (context : List String) (path : String) (line : Nat) (column : Option Nat) :
    (located context path line column).line.toList = locatedText path.toList line column := by
  cases column <;> simp [Record.line, locatedText, columnPart]

theorem toList_line_placed (path : String) (line column : Nat) (message : String) :
    (placed path line column message).line.toList = placedText path.toList line column message.toList := by
  simp [Record.line, placedText]

theorem toList_line_filed (stem extension message : String) :
    (filed stem extension message).line.toList =
      stem.toList ++ (extension.toList ++ ':' :: ' ' :: message.toList) := by
  simp [Record.line]

theorem IsBarePath.isPathChar {path : String} (h : IsBarePath path) : ∀ c ∈ path.toList, isPathChar c = true :=
  List.all_eq_true.1 h.chars

theorem IsBarePath.head_ne {path : String} (h : IsBarePath path) : ∀ c ∈ path.toList.head?, c ≠ '-' := by
  rintro c hc rfl
  exact h.hyphen hc

theorem IsBarePath.isPhrase {path : String} (h : IsBarePath path) : IsPhrase path :=
  Text.isPhrase_of_ink h.ne fun c hc => (isPathChar_iff.1 (h.isPathChar c hc)).2

theorem isFreeText_context {r : Record} (h : r.Valid) : ∀ t ∈ r.context, IsFreeText t := by
  cases r with
  | located context path line column => exact h.1
  | fixing path => simp [context]
  | placed path line column message => simp [context]
  | filed stem extension message => simp [context]

theorem isPhrase_line {r : Record} (h : r.Valid) : IsPhrase r.line := by
  have hnumeral (n : Nat) : IsPhrase (toString n) := Text.isPhrase_toString n
  cases r with
  | fixing path => exact Text.isPhrase_append (by decide) (by decide) (by decide) h
  | located context path line column =>
    obtain ⟨-, -, -, hfeed⟩ := h
    have hquoted : '\n' ∉ (" \"" ++ path ++ "\", line ").toList := by
      simp only [String.toList_append, List.mem_append, hfeed, or_false]
      decide
    have hline : IsPhrase ("in" ++ (" \"" ++ path ++ "\", line ") ++ toString line) :=
      Text.isPhrase_append_text (by decide) hquoted (hnumeral line)
    have heq : "in" ++ (" \"" ++ path ++ "\", line ") ++ toString line =
        "in \"" ++ path ++ "\", line " ++ toString line := by
      rw [← String.toList_inj]
      simp
    rw [heq] at hline
    cases column with
    | none => simpa [Record.line] using hline
    | some column =>
      have hcolumn := Text.isPhrase_append_text (b := ", column ") hline (by decide) (hnumeral column)
      rwa [String.append_assoc] at hcolumn
  | placed path line column message =>
    obtain ⟨hpath, hmessage⟩ := h
    have hplace : '\n' ∉ (":" ++ toString line ++ ":" ++ toString column ++ ": ").toList := by
      simp only [String.toList_append, List.mem_append, (hnumeral line).feed, (hnumeral column).feed, or_false]
      decide
    have hline := Text.isPhrase_append_text hpath.isPhrase hplace hmessage
    simpa only [Record.line, String.append_assoc] using hline
  | filed stem extension message =>
    obtain ⟨hstem, hextension, hmessage⟩ := h
    have hnames : ∀ e ∈ extensions, '\n' ∉ (e ++ ": ").toList := by decide
    have hline := Text.isPhrase_append_text hstem.isPhrase (hnames extension hextension) hmessage
    simpa only [Record.line, String.append_assoc] using hline

theorem isPhrase_message {r : Record} (h : r.Valid) (id : String) : IsPhrase (r.message id) := by
  cases r with
  | fixing path =>
    rw [message, fixingMessage]
    split <;> decide
  | located context path line column =>
    rw [message]
    split
    · decide
    · next hne => exact Text.isPhrase_intercalate hne fun t ht => (h.1 t ht).phrase
  | placed path line column message => exact h.2
  | filed stem extension message => exact h.2.2

/-- The finding of a record has the hook as its rule, and what the record says as its message. -/
theorem rule_finding {r : Record} (h : r.Valid) {id : String} (hid : IsPhrase id) (root : Path) (tool : Tool) :
    (r.finding root tool id).rule = id ∧ (r.finding root tool id).message = r.message id := by
  have hrule := Finding.nonempty_eq_self hid
  have hmessage := Finding.nonempty_eq_self (isPhrase_message h id)
  cases r <;> simp only [finding, Finding.rule_new, Finding.message_new, hrule, hmessage, and_self]

end Record

/-! ## Lines of runs -/

theorem feed_notMem_of_mem_lines {run : HookRun} (h : run.Valid) {l : String} (hl : l ∈ run.lines) :
    '\n' ∉ l.toList := by
  rw [HookRun.lines, List.mem_append, Option.mem_toList, Option.map_eq_some_iff,
    List.mem_cons, List.mem_flatMap] at hl
  rcases hl with ⟨status, hstatus, rfl⟩ | rfl | ⟨p, hp, hl⟩
  · have hvalid := h.status status hstatus
    rw [StatusLine.text, String.toList_append, List.mem_append, not_or]
    exact ⟨hvalid.name, (StatusLine.isPhrase_leader_outcome hvalid).feed⟩
  · simp [Text.feed_notMem_of_ink h.id.2]
  · have hvalid := h.parts p hp
    cases p with
    | note n =>
      obtain rfl := List.mem_singleton.1 hl
      exact Note.feed_notMem_text hvalid
    | record r =>
      rw [Part.lines, Record.lines, List.mem_append, List.mem_singleton] at hl
      rcases hl with hl | rfl
      · exact (Record.isFreeText_context hvalid l hl).phrase.feed
      · exact (Record.isPhrase_line hvalid).feed

theorem valid_of_mem_records {runs : List HookRun} (h : ∀ run ∈ runs, run.Valid) {p : String × Record}
    (hp : p ∈ runs.flatMap HookRun.records) : IsPhrase p.1 ∧ p.2.Valid := by
  obtain ⟨run, hrun, hp⟩ := List.mem_flatMap.1 hp
  obtain ⟨r, hr, rfl⟩ := List.mem_map.1 hp
  obtain ⟨part, hpart, hrecord⟩ := List.mem_filterMap.1 hr
  have hvalid := h run hrun
  refine ⟨Text.isPhrase_of_ink (by simpa using hvalid.id.1) hvalid.id.2, ?_⟩
  cases part with
  | note n => cases hrecord
  | record r' =>
    obtain rfl := Option.some.inj hrecord
    exact hvalid.parts _ hpart

end LintHub.Transcript
