import LintHub.Proofs.Report.Printed
import LintHub.Proofs.Text.Words
import LintHub.Report.Transcript

/-!
# What the lines of a transcript are

One lemma for each form of a line that hooks print, without its outer blanks.

* `HookLine.of_separator`, `HookLine.of_hook`, `HookLine.of_metadata` : these forms are told before all others.
* `HookLine.of_eq_of_head` : what is left for a line that starts with no hyphen. A line whose end looks like the status
  of a hook is one, whatever it starts with.
* `HookLine.of_fixing`, `HookLine.of_located`, `HookLine.of_placed`, `HookLine.of_filed` : lines that name a file.
* `HookLine.of_freeText` : a line of none of these forms.
-/

namespace LintHub

open Text (IsWord isBlank)
open Columns (isInk place?_numerals place?_eq_none head?_ne_of_notMem)

namespace Transcript

/-! ## Heads of lines -/

theorem afterHyphen?_eq_none {s : List Char} (h : ∀ c ∈ s.head?, c ≠ '-') : afterHyphen? s = none := by
  unfold afterHyphen?
  split
  · exact absurd rfl (h _ rfl)
  · rfl

theorem hookId?_eq_none {s : List Char} (h : ∀ c ∈ s.head?, c ≠ '-') : hookId? s = none := by
  rw [hookId?, afterHyphen?_eq_none h]
  rfl

theorem isMetadata_eq_false {s : List Char} (h : ∀ c ∈ s.head?, c ≠ '-') : isMetadata s = false := by
  rw [isMetadata, afterHyphen?_eq_none h]
  rfl

/-! ## Status lines -/

/-- The outcomes of a hook. -/
def outcomes : List String := ["Passed", "Failed", "Skipped"]

theorem isStatus_iff {s : List Char} :
    isStatus s = true ↔ ∃ word ∈ outcomes, ∃ t, t ++ word.toList = s ∧ endsWithLeader t = true := by
  have heq : isStatus s = outcomes.any fun word => (Text.dropEnd? word.toList s).any endsWithLeader := rfl
  simp only [heq, List.any_eq_true, Option.any_eq_true, Text.dropEnd?_eq_some_iff]

theorem getLast?_of_isStatus {s : List Char} (h : isStatus s = true) : s.getLast? = some 'd' := by
  obtain ⟨word, hword, t, rfl, -⟩ := isStatus_iff.1 h
  have hlast : ∀ word ∈ outcomes, word.toList ≠ [] ∧ word.toList.getLast? = some 'd' := by decide
  rw [List.getLast?_append_of_ne_nil t (hlast word hword).1, (hlast word hword).2]

theorem replicate_dots {n : Nat} (h : 3 ≤ n) : ∃ m, List.replicate n '.' = List.replicate m '.' ++ "...".toList := by
  obtain ⟨m, rfl⟩ := Nat.exists_eq_add_of_le' h
  exact ⟨m, List.replicate_add m 3 '.'⟩

theorem endsWithLeader_dots (s : List Char) {n : Nat} (h : 3 ≤ n) :
    endsWithLeader (s ++ List.replicate n '.') = true := by
  obtain ⟨m, hm⟩ := replicate_dots h
  have hsuffix : "...".toList <:+ s ++ List.replicate n '.' := by
    rw [hm, ← List.append_assoc]
    exact List.suffix_append _ _
  rw [endsWithLeader, List.isSuffixOf_iff_suffix.2 hsuffix, Bool.true_or]

theorem endsWithLeader_reason (s reason : List Char) {n : Nat} (h : 3 ≤ n) :
    endsWithLeader (s ++ List.replicate n '.' ++ '(' :: (reason ++ [')'])) = true := by
  obtain ⟨m, hm⟩ := replicate_dots h
  have hfront : s ++ List.replicate n '.' ++ '(' :: (reason ++ [')']) =
      s ++ List.replicate n '.' ++ '(' :: reason ++ [')'] := by
    rw [← List.cons_append, ← List.append_assoc]
  have hinfix : "...(".toList <:+: s ++ List.replicate n '.' ++ '(' :: reason :=
    ⟨s ++ List.replicate m '.', reason, by simp [hm]⟩
  rw [endsWithLeader, hfront, List.dropLast_concat, List.getLast?_concat, Text.occurs_of_infix hinfix]
  simp

/-! ## Lines that name a file -/

/-- A character of a path that a colon ends. -/
def isPathChar (c : Char) : Bool := c != ':' && isInk c

theorem isPathChar_iff {c : Char} : isPathChar c = true ↔ c ≠ ':' ∧ isBlank c = false := by
  simp [isPathChar, isInk]

theorem isInk_of_isPathChar {c : Char} (h : isPathChar c = true) : isInk c = true := by
  simp [isInk, (isPathChar_iff.1 h).2]

theorem colon_notMem {path : List Char} (hpath : ∀ x ∈ path, isPathChar x = true) : ':' ∉ path :=
  fun hcolon => (isPathChar_iff.1 (hpath _ hcolon)).1 rfl

/-- A word with a blank behind it is no path with a colon behind it. -/
theorem append_colon_ne_append_blank {path word s t : List Char} {c : Char} (hpath : ∀ x ∈ path, isPathChar x = true)
    (hword : ∀ x ∈ word, isPathChar x = true) (hc : isBlank c = true) : path ++ ':' :: s ≠ word ++ c :: t := by
  intro h
  have hblank : isPathChar c = false := by simp [isPathChar, isInk, hc]
  obtain ⟨-, rfl, -⟩ := Text.eq_of_append_cons_eq hpath hword (by decide) hblank h
  exact absurd hc (by decide)

theorem fixing?_printed {path : List Char} (hne : path ≠ []) (hhead : ∀ c ∈ path.head?, isBlank c = false) :
    fixing? ("Fixing ".toList ++ path) = some path := by
  have hcut : "Fixing".toList.isPrefixOf? ("Fixing ".toList ++ path) = some (' ' :: path) :=
    List.isPrefixOf?_eq_some_iff_append_eq.2 rfl
  have hblank : isBlank ' ' = true := by decide
  rw [fixing?, hcut, Option.bind_eq_bind, Option.bind_some]
  simp only [hblank, if_true, Text.trimStart_space hhead]

theorem fixing?_eq_none {path rest : List Char} (hpath : ∀ x ∈ path, isPathChar x = true) :
    fixing? (path ++ ':' :: rest) = none := by
  have hword : ∀ x ∈ "Fixing".toList, isPathChar x = true := List.all_eq_true.1 (by decide)
  rw [fixing?]
  cases hcut : "Fixing".toList.isPrefixOf? (path ++ ':' :: rest) with
  | none => rfl
  | some tail =>
    have htail := List.isPrefixOf?_eq_some_iff_append_eq.1 hcut
    cases tail with
    | nil => rfl
    | cons c tail =>
      have hc : ¬ isBlank c = true := fun hc => append_colon_ne_append_blank hpath hword hc htail.symm
      simp only [Option.bind_eq_bind, Option.bind_some, if_neg hc]

/-- What a located error may say of the column. -/
def columnPart (column : Option Nat) : List Char :=
  column.elim [] fun column => ", column ".toList ++ Nat.toDigits 10 column

/-- The line of a located error. -/
def locatedText (path : List Char) (line : Nat) (column : Option Nat) : List Char :=
  "in \"".toList ++ (path ++ ("\", line ".toList ++ (Nat.toDigits 10 line ++ columnPart column)))

theorem getLast?_place (line : Nat) (column : Option Nat) :
    ∃ c, (Nat.toDigits 10 line ++ columnPart column).getLast? = some c ∧ Text.isDigit c = true := by
  have hlast (n : Nat) : ∃ c, (Nat.toDigits 10 n).getLast? = some c ∧ Text.isDigit c = true :=
    ⟨_, List.getLast?_eq_some_getLast Nat.toDigits_ne_nil, Text.isDigit_of_mem_toDigits (List.getLast_mem _)⟩
  cases column with
  | none =>
    rw [columnPart, Option.elim_none, List.append_nil]
    exact hlast line
  | some column =>
    rw [columnPart, Option.elim_some, ← List.append_assoc, List.getLast?_append_of_ne_nil _ Nat.toDigits_ne_nil]
    exact hlast column

/-- The line of a located error ends with a digit. -/
theorem isStatus_located (path : List Char) (line : Nat) (column : Option Nat) :
    isStatus (locatedText path line column) = false := by
  by_contra hstatus
  rw [Bool.not_eq_false] at hstatus
  obtain ⟨c, hc, hdigit⟩ := getLast?_place line column
  have hplace : Nat.toDigits 10 line ++ columnPart column ≠ [] := by simp
  have hlast := getLast?_of_isStatus hstatus
  rw [locatedText, ← List.append_assoc, ← List.append_assoc, List.getLast?_append_of_ne_nil _ hplace, hc,
    Option.some.injEq] at hlast
  rw [hlast] at hdigit
  exact absurd hdigit (by decide)

theorem located?_printed {path : List Char} (hne : path ≠ []) (hquote : '"' ∉ path) (line : Nat)
    (column : Option Nat) :
    located? (locatedText path line column) =
      some (.located path (Nat.toDigits 10 line) (column.map (Nat.toDigits 10))) := by
  have hopen (s : List Char) : "in \"".toList.isPrefixOf? ("in \"".toList ++ s) = some s :=
    List.isPrefixOf?_eq_some_iff_append_eq.2 rfl
  have hclose (s : List Char) : "\", line ".toList.isPrefixOf? ("\", line ".toList ++ s) = some s :=
    List.isPrefixOf?_eq_some_iff_append_eq.2 rfl
  have hpath (s : List Char) :
      Text.run? (· != '"') (path ++ ("\", line ".toList ++ s)) = some (path, "\", line ".toList ++ s) := by
    refine Text.run?_append hne (fun c hc => ?_) ?_
    · have : c ≠ '"' := by rintro rfl; exact hquote hc
      simpa using this
    · rintro c ⟨⟩
      decide
  have hline : Text.run? Text.isDigit (Nat.toDigits 10 line ++ columnPart column) =
      some (Nat.toDigits 10 line, columnPart column) := by
    refine Text.run?_append Nat.toDigits_ne_nil (fun _ hc => Text.isDigit_of_mem_toDigits hc) ?_
    cases column with
    | none => rintro c ⟨⟩
    | some column =>
      rintro c ⟨⟩
      decide
  cases column with
  | none =>
    have hnone : ", column ".toList.isPrefixOf? (columnPart none) = none := rfl
    simp only [located?, locatedText, hopen, hpath, hclose, hline, hnone, Option.bind_eq_bind, Option.bind_some,
      Option.bind_none, Option.map_none]
  | some column =>
    have hcolumn : ", column ".toList.isPrefixOf? (columnPart (some column)) = some (Nat.toDigits 10 column) :=
      List.isPrefixOf?_eq_some_iff_append_eq.2 rfl
    have hdigits : Text.run? Text.isDigit (Nat.toDigits 10 column) = some (Nat.toDigits 10 column, []) :=
      Text.run?_self Nat.toDigits_ne_nil fun _ hc => Text.isDigit_of_mem_toDigits hc
    simp only [located?, locatedText, hopen, hpath, hclose, hline, hcolumn, hdigits, Option.bind_eq_bind,
      Option.bind_some, Option.map_some]

theorem located?_eq_none {path rest : List Char} (hpath : ∀ x ∈ path, isPathChar x = true) :
    located? (path ++ ':' :: rest) = none := by
  have hword : ∀ x ∈ "in".toList, isPathChar x = true := List.all_eq_true.1 (by decide)
  rw [located?]
  cases hcut : "in \"".toList.isPrefixOf? (path ++ ':' :: rest) with
  | none => rfl
  | some tail =>
    have htail : "in \"".toList ++ tail = path ++ ':' :: rest := List.isPrefixOf?_eq_some_iff_append_eq.1 hcut
    rw [show "in \"".toList ++ tail = "in".toList ++ ' ' :: '"' :: tail from rfl] at htail
    exact absurd htail.symm (append_colon_ne_append_blank hpath hword (by decide))

/-- The line of a path with a place and a message. -/
def placedText (path : List Char) (line column : Nat) (message : List Char) : List Char :=
  path ++ ':' :: (Nat.toDigits 10 line ++ ':' :: (Nat.toDigits 10 column ++ ':' :: ' ' :: message))

theorem colonMessage?_printed {message : List Char} (h : ∀ c ∈ message.head?, isBlank c = false) :
    colonMessage? (':' :: ' ' :: message) = some message := by
  rw [colonMessage?, Text.trimStart_space h]

theorem placeMessage?_eq_none {s : List Char} (h : ∀ c ∈ s.head?, c ≠ ':') : placeMessage? s = none := by
  rw [placeMessage?, place?_eq_none h]
  rfl

theorem placed?_printed {path line column message : List Char} (hline : Text.IsNumeral line)
    (hcolumn : Text.IsNumeral column) (hne : path ≠ []) (hpath : ∀ x ∈ path, isPathChar x = true)
    (hmessage : ∀ c ∈ message.head?, isBlank c = false) :
    placed? (path ++ ':' :: (line ++ ':' :: (column ++ ':' :: ' ' :: message))) =
      some (.placed path line column message) := by
  have hplace : ∀ c ∈ (':' :: ' ' :: message).head?, Text.isDigit c = false := by
    rintro c ⟨⟩
    decide
  have hnext : placeMessage? (':' :: (line ++ ':' :: (column ++ ':' :: ' ' :: message))) =
      some ((line, column), message) := by
    simp only [placeMessage?, place?_numerals hline hcolumn hplace, colonMessage?_printed hmessage,
      Option.bind_eq_bind, Option.bind_some]
  have hhead := Text.shortestHead_append hne (fun x hx => isInk_of_isPathChar (hpath x hx)) hnext
    fun p q hpq _ hq => placeMessage?_eq_none (head?_ne_of_notMem (colon_notMem hpath) hpq hq)
  rw [placed?, hhead]
  rfl

/-- Behind the colon of the path a blank stands, and before it no other colon. -/
theorem placed?_eq_none {path message : List Char} (hpath : ∀ x ∈ path, isPathChar x = true) :
    placed? (path ++ ':' :: ' ' :: message) = none := by
  have hcolon := colon_notMem hpath
  rw [placed?, Text.shortestHead_eq_none, Option.map_none]
  intro p q hpq _ hp
  have hspace : ' ' ∉ p := fun hmem => absurd (hp _ hmem) (by decide)
  by_cases hq : ∀ c ∈ q.head?, c ≠ ':'
  · exact placeMessage?_eq_none hq
  · obtain ⟨q, rfl⟩ : ∃ t, q = ':' :: t := by
      cases q with
      | nil => simp at hq
      | cons c q =>
        simp only [List.head?_cons, Option.mem_some_iff, forall_eq', not_not] at hq
        exact ⟨q, by rw [hq]⟩
    have hrest : q = ' ' :: message := by
      rcases List.append_eq_append_iff.1 hpq with ⟨inner, rfl, hinner⟩ | ⟨inner, rfl, hinner⟩
      · match inner, hinner with
        | [], hinner => exact (List.cons.inj hinner).2.symm
        | [_], hinner => exact absurd (List.cons.inj (List.cons.inj hinner).2).1 (by decide)
        | _ :: _ :: _, hinner =>
          rw [← (List.cons.inj (List.cons.inj hinner).2).1] at hspace
          simp at hspace
      · match inner, hinner with
        | [], hinner => exact (List.cons.inj hinner).2
        | _ :: _, hinner =>
          rw [← (List.cons.inj hinner).1] at hcolon
          simp at hcolon
    rw [hrest]
    rfl

/-! ## Extensions -/

theorem exists_of_mem_extensions {extension : String} (h : extension ∈ extensions) :
    ∃ name, extension.toList = '.' :: name ∧ '.' ∉ name ∧ ':' ∉ name := by
  have hall : ∀ e ∈ extensions, e.toList.head? = some '.' ∧ '.' ∉ e.toList.tail ∧ ':' ∉ e.toList.tail := by decide
  obtain ⟨hhead, hdot, hcolon⟩ := hall extension h
  obtain ⟨name, hname⟩ := List.head?_eq_some_iff.1 hhead
  rw [hname] at hdot hcolon
  exact ⟨name, hname, hdot, hcolon⟩

theorem exists_of_extensionMessage? {s found message : List Char}
    (h : extensionMessage? s = some (found, message)) :
    ∃ extension ∈ extensions, found = extension.toList ∧ ∃ rest, extension.toList ++ rest = s ∧
      colonMessage? rest = some message := by
  obtain ⟨extension, hmem, hsome⟩ := List.exists_of_findSome?_eq_some h
  simp only [Option.bind_eq_bind, Option.bind_eq_some_iff, Option.some.injEq, Prod.mk.injEq] at hsome
  obtain ⟨rest, hcut, _, hmessage, rfl, rfl⟩ := hsome
  exact ⟨extension, hmem, rfl, rest, List.isPrefixOf?_eq_some_iff_append_eq.1 hcut, hmessage⟩

/-- An extension has one dot, so it fits at one place in front of the colon only. -/
theorem eq_of_extension {q rest s message : List Char} {extension other : String} (h : extension ∈ extensions)
    (hother : other ∈ extensions) (hq : ':' ∉ q) (hrest : colonMessage? rest = some message)
    (heq : other.toList ++ rest = q ++ (extension.toList ++ ':' :: s)) :
    q = [] ∧ other = extension ∧ rest = ':' :: s := by
  obtain ⟨name, hname, -, hcolon⟩ := exists_of_mem_extensions h
  obtain ⟨name', hname', hdot', hcolon'⟩ := exists_of_mem_extensions hother
  obtain ⟨t, rfl⟩ : ∃ t, rest = ':' :: t := by
    unfold colonMessage? at hrest
    split at hrest
    · exact ⟨_, rfl⟩
    · cases hrest
  have hstop {l : List Char} (hl : ':' ∉ l) : ∀ x ∈ l, (x != ':') = true := fun x hx => by
    have : x ≠ ':' := by rintro rfl; exact hl hx
    simpa using this
  rw [hname, hname', ← List.append_assoc] at heq
  obtain ⟨hsame, -, rfl⟩ := Text.eq_of_append_cons_eq (hstop (by simp [hcolon']))
    (hstop (by simp [hq, hcolon])) (by decide) (by decide) heq
  cases q with
  | nil => exact ⟨rfl, String.toList_inj.1 (by rw [hname, hname']; exact hsame), rfl⟩
  | cons c q =>
    have htail : name' = q ++ '.' :: name := (List.cons.inj hsame).2
    rw [htail] at hdot'
    simp at hdot'

theorem extensionMessage?_printed {message : List Char} {extension : String} (h : extension ∈ extensions)
    (hmessage : ∀ c ∈ message.head?, isBlank c = false) :
    extensionMessage? (extension.toList ++ ':' :: ' ' :: message) = some (extension.toList, message) := by
  have htrim := colonMessage?_printed hmessage
  cases hfound : extensionMessage? (extension.toList ++ ':' :: ' ' :: message) with
  | none =>
    have hcut : extension.toList.isPrefixOf? (extension.toList ++ ':' :: ' ' :: message) =
        some (':' :: ' ' :: message) := List.isPrefixOf?_eq_some_iff_append_eq.2 rfl
    have hnone := List.findSome?_eq_none_iff.1 hfound extension h
    simp [hcut, htrim] at hnone
  | some found =>
    obtain ⟨other, hother, hfst, rest, heq, hrest⟩ := exists_of_extensionMessage? hfound
    obtain ⟨-, rfl, rfl⟩ := eq_of_extension (q := []) h hother (by simp) hrest heq
    rw [htrim, Option.some.injEq] at hrest
    rw [hrest, ← hfst]

theorem extensionMessage?_eq_none {q s : List Char} {extension : String} (h : extension ∈ extensions) (hne : q ≠ [])
    (hq : ':' ∉ q) : extensionMessage? (q ++ (extension.toList ++ ':' :: s)) = none := by
  cases hfound : extensionMessage? (q ++ (extension.toList ++ ':' :: s)) with
  | none => rfl
  | some found =>
    obtain ⟨other, hother, -, rest, heq, hrest⟩ := exists_of_extensionMessage? hfound
    exact absurd (eq_of_extension h hother hq hrest heq).1 hne

theorem filed?_printed {stem message : List Char} {extension : String} (h : extension ∈ extensions) (hne : stem ≠ [])
    (hstem : ∀ x ∈ stem, isPathChar x = true) (hmessage : ∀ c ∈ message.head?, isBlank c = false) :
    filed? (stem ++ (extension.toList ++ ':' :: ' ' :: message)) =
      some (.filed (stem ++ extension.toList) message) := by
  have hhead := Text.shortestHead_append hne (fun x hx => isInk_of_isPathChar (hstem x hx))
    (extensionMessage?_printed h hmessage) fun p q hpq _ hq => extensionMessage?_eq_none h hq fun hcolon => by
      refine colon_notMem hstem ?_
      rw [hpq]
      exact List.mem_append_right p hcolon
  rw [filed?, hhead]
  rfl

/-! ## Free text -/

/-- A line of no other form. -/
structure IsFreeText (t : String) : Prop where
  phrase : Text.IsPhrase t
  rule : t.toList.all isRule = false
  hook : hookId? t.toList = none
  metadata : isMetadata t.toList = false
  status : isStatus t.toList = false
  fixing : fixing? t.toList = none
  located : located? t.toList = none
  placed : placed? t.toList = none
  filed : filed? t.toList = none

end Transcript

/-! ## What a line is -/

namespace HookLine

open Transcript

theorem of_separator {s : List Char} (hne : s ≠ []) (hs : s.all isRule = true) : of s = .separator := by
  have hempty : s.isEmpty = false := by simpa using hne
  simp [of, hempty, hs]

theorem of_hook {id : List Char} (hid : IsWord id) : of ("- hook id: ".toList ++ id) = .hook id := by
  have hrule : ("- hook id: ".toList ++ id).all isRule = false := rfl
  have hhyphen : afterHyphen? ("- hook id: ".toList ++ id) = some ("hook id: ".toList ++ id) := rfl
  have hmark : "hook id:".toList.isPrefixOf? ("hook id: ".toList ++ id) = some (' ' :: id) :=
    List.isPrefixOf?_eq_some_iff_append_eq.2 rfl
  have htrim : Text.trimStart (' ' :: id) = id := Text.trimStart_space (Text.tight_of_ink hid.2).1
  have hrun : Text.run? isInk id = some (id, []) :=
    Text.run?_self hid.1 fun c hc => by simp [isInk, hid.2 c hc]
  have hname : hookId? ("- hook id: ".toList ++ id) = some id := by
    simp only [hookId?, hhyphen, hmark, htrim, hrun, Option.bind_eq_bind, Option.bind_some]
  rw [of, hrule, hname, Bool.and_false]
  rfl

theorem of_metadata {mark : String} (hmark : mark ∈ metadataMarks) (rest : List Char) :
    of ("- ".toList ++ (mark.toList ++ rest)) = .metadata := by
  simp only [metadataMarks, List.mem_cons, List.not_mem_nil, or_false] at hmark
  rcases hmark with rfl | rfl | rfl
  all_goals rfl

/-- What is left for a line that is no rule and starts with no hyphen. -/
theorem of_eq_of_head {s : List Char} (hhead : ∀ c ∈ s.head?, c ≠ '-') (hrule : s.all isRule = false) :
    of s = if isStatus s then .status else
      match fixing? s with
      | some path => .fixing path
      | none => ((located? s).or ((placed? s).or (filed? s))).getD (.text s) := by
  rw [of, hookId?_eq_none hhead, isMetadata_eq_false hhead, hrule, Bool.and_false]
  rfl

/-- A line with the end of a status line brings no finding: a rule, a name or metadata comes first, then the status. -/
theorem step_of_isStatus {s : List Char} (h : isStatus s = true) (root : Path) (tool : Tool) (b : Block) :
    (step root tool b (of s)).2 = none := by
  unfold of
  split
  · rfl
  · split
    · rfl
    · split
      · rfl
      · rfl

theorem of_fixing {path : List Char} (hne : path ≠ []) (hhead : ∀ c ∈ path.head?, isBlank c = false) :
    of ("Fixing ".toList ++ path) = if isStatus ("Fixing ".toList ++ path) then .status else .fixing path := by
  have hfirst : ∀ c ∈ ("Fixing ".toList ++ path).head?, c ≠ '-' := by
    rintro c ⟨⟩
    decide
  have hrule : ("Fixing ".toList ++ path).all isRule = false := rfl
  rw [of_eq_of_head hfirst hrule, fixing?_printed hne hhead]

theorem of_located {path : List Char} (hne : path ≠ []) (hquote : '"' ∉ path) (line : Nat) (column : Option Nat) :
    of (locatedText path line column) =
      .located path (Nat.toDigits 10 line) (column.map (Nat.toDigits 10)) := by
  have hfirst : ∀ c ∈ (locatedText path line column).head?, c ≠ '-' := by
    rintro c ⟨⟩
    decide
  have hfixing : fixing? (locatedText path line column) = none := rfl
  rw [of_eq_of_head hfirst rfl, isStatus_located, hfixing, located?_printed hne hquote]
  rfl

/-- A line that starts with a path and a colon. -/
theorem of_path {path rest : List Char} (hne : path ≠ []) (hpath : ∀ x ∈ path, isPathChar x = true)
    (hhyphen : ∀ c ∈ path.head?, c ≠ '-') :
    of (path ++ ':' :: rest) = if isStatus (path ++ ':' :: rest) then .status
      else ((placed? (path ++ ':' :: rest)).or (filed? (path ++ ':' :: rest))).getD (.text (path ++ ':' :: rest)) := by
  have hfirst : ∀ c ∈ (path ++ ':' :: rest).head?, c ≠ '-' := by
    rwa [List.head?_append_of_ne_nil path hne]
  have hrule : (path ++ ':' :: rest).all isRule = false := List.all_eq_false.2 ⟨':', by simp, by decide⟩
  rw [of_eq_of_head hfirst hrule, fixing?_eq_none hpath, located?_eq_none hpath]
  rfl

theorem of_placed {path message : List Char} (line column : Nat) (hne : path ≠ [])
    (hpath : ∀ x ∈ path, isPathChar x = true) (hhyphen : ∀ c ∈ path.head?, c ≠ '-')
    (hmessage : ∀ c ∈ message.head?, isBlank c = false) :
    of (placedText path line column message) =
      if isStatus (placedText path line column message) then .status
      else .placed path (Nat.toDigits 10 line) (Nat.toDigits 10 column) message := by
  have hplaced := placed?_printed (Text.isNumeral_toDigits line) (Text.isNumeral_toDigits column) hne hpath hmessage
  rw [placedText, of_path hne hpath hhyphen, hplaced]
  rfl

theorem of_filed {stem message : List Char} {extension : String} (h : extension ∈ extensions) (hne : stem ≠ [])
    (hstem : ∀ x ∈ stem, isPathChar x = true) (hhyphen : ∀ c ∈ stem.head?, c ≠ '-')
    (hmessage : ∀ c ∈ message.head?, isBlank c = false) :
    of (stem ++ (extension.toList ++ ':' :: ' ' :: message)) =
      if isStatus (stem ++ (extension.toList ++ ':' :: ' ' :: message)) then .status
      else .filed (stem ++ extension.toList) message := by
  have hpath : ∀ x ∈ stem ++ extension.toList, isPathChar x = true := by
    have hextension : ∀ e ∈ extensions, e.toList.all isPathChar = true := by decide
    intro x hx
    rcases List.mem_append.1 hx with hx | hx
    · exact hstem x hx
    · exact List.all_eq_true.1 (hextension extension h) x hx
  have hfirst : ∀ c ∈ (stem ++ extension.toList).head?, c ≠ '-' := by
    rwa [List.head?_append_of_ne_nil stem hne]
  have hfiled := filed?_printed h hne hstem hmessage
  rw [← List.append_assoc] at hfiled ⊢
  rw [of_path (by simp [hne]) hpath hfirst, placed?_eq_none hpath, hfiled]
  rfl

theorem of_freeText {t : String} (h : IsFreeText t) : of t.toList = .text t.toList := by
  simp [of, h.rule, h.hook, h.metadata, h.status, h.fixing, h.located, h.placed, h.filed]

end HookLine

end LintHub
