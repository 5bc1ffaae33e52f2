import LintHub.Proofs.Checking.Lifetime
import LintHub.Proofs.Disk.Names

/-!
# Checking many files at once

`Checker.checkFiles` reads every file before the first tool runs, and `Checker.checkFile` reads a file just before its
own check. Both use and change one cache.

* `Checker.untimed` : a checker without the times of its entries. They play no part in checks:
  `Checker.checkHashed_untimed`.
* `Checker.checkEach` : files are checked one by one.
* `Checker.Undisturbed` : no check changes a file that is still to be checked. `Checker.undisturbed_of_keeps` says that
  it is so when no run changes any of the files.
* `Checker.checkFiles_eq_checkEach` : both ways give the same.
-/

namespace LintHub

/-! ## Times -/

def CacheEntry.untimed (e : CacheEntry) : CacheEntry := { e with createdAt := 0 }

namespace Cache

def untimed (c : Cache) : Cache := { c with entries := c.entries.map fun entry => (entry.1, entry.2.untimed) }

theorem valid?_untimed (c : Cache) (path : Path) (key : CacheKey) :
    c.untimed.valid? path key = (c.valid? path key).map CacheEntry.untimed := by
  unfold valid? get? untimed
  dsimp only
  rw [Table.get?_map]
  split
  · cases c.entries.get? path.text with
    | none => rfl
    | some e =>
      show (if e.holdsFor key then some e.untimed else none) = (if e.holdsFor key then some e else none).map _
      split
      · rfl
      · rfl
  · rfl

theorem insert_untimed (c : Cache) (path : Path) (e : CacheEntry) :
    (c.insert path e).untimed = c.untimed.insert path e.untimed := by
  unfold insert untimed
  dsimp only
  rw [Table.insert_map]
  split
  · rfl
  · rfl

end Cache

namespace Checker

/-- The checker without the times at which its entries were stored. -/
def untimed (c : Checker) : Checker := { c with cache := c.cache.untimed }

section Times

variable {h : Host} {c c' : Checker} {d : Disk} {path : Path}

theorem runTools_untimed (tools : List Tool) : c.untimed.runTools h d path tools = c.runTools h d path tools := by
  induction tools generalizing d with
  | nil => rfl
  | cons t ts ih =>
    unfold runTools
    dsimp only
    rw [ih]
    rfl

theorem checkFresh_untimed : c.untimed.checkFresh h d path = c.checkFresh h d path := by
  rw [checkFresh, runTools_untimed]
  rfl

theorem askVersions_untimed (tools : List Tool) : c.untimed.askVersions h d tools = c.askVersions h d tools := by
  induction tools generalizing d with
  | nil => rfl
  | cons t ts ih =>
    unfold askVersions
    simp only [ih]
    rfl

theorem versionsNow_untimed (h : Host) (c : Checker) (d : Disk) : c.untimed.versionsNow h d =
    ((c.versionsNow h d).1, (c.versionsNow h d).2.1.untimed, (c.versionsNow h d).2.2) := by
  have henabled : c.untimed.cache.enabled = c.cache.enabled := rfl
  have hknown : c.untimed.versions = c.versions := rfl
  have hsettings : c.untimed.settings = c.settings := rfl
  unfold versionsNow knowVersions
  rw [henabled, hknown, hsettings, askVersions_untimed]
  split
  · cases c.versions with
    | none => rfl
    | some known => rfl
  · rfl

/-- A check says the same, whenever it and those before it were made. -/
theorem checkHashed_untimed (h : Host) (now : UInt64) (c : Checker) (d : Disk) (path : Path) (hash : String) :
    c.untimed.checkHashed h 0 d path hash =
      ((c.checkHashed h now d path hash).1, (c.checkHashed h now d path hash).2.1.untimed,
        (c.checkHashed h now d path hash).2.2) := by
  have hkey : c.untimed.currentKey h d hash = c.currentKey h d hash := by
    rw [currentKey, versionsNow_untimed]
    rfl
  have hvalid : c.untimed.cache.valid? path (c.currentKey h d hash) =
      (c.cache.valid? path (c.currentKey h d hash)).map CacheEntry.untimed := c.cache.valid?_untimed path _
  rw [checkHashed_eq, checkHashed_eq, hkey, hvalid, versionsNow_untimed]
  cases c.cache.valid? path (c.currentKey h d hash) with
  | some e => rfl
  | none =>
    dsimp only [Option.map_none]
    rw [checkFresh_untimed]
    split
    · rw [store, store, untimed, untimed, Cache.insert_untimed]
      rfl
    · rfl

theorem checkHashed_congr (hsame : c.untimed = c'.untimed) (h : Host) (now now' : UInt64) (d : Disk) (path : Path)
    (hash : String) :
    (c.checkHashed h now d path hash).1 = (c'.checkHashed h now' d path hash).1 ∧
      (c.checkHashed h now d path hash).2.1.untimed = (c'.checkHashed h now' d path hash).2.1.untimed ∧
      (c.checkHashed h now d path hash).2.2 = (c'.checkHashed h now' d path hash).2.2 := by
  have heq := checkHashed_untimed h now c d path hash
  rw [hsame, checkHashed_untimed h now' c' d path hash, Prod.mk.injEq, Prod.mk.injEq] at heq
  exact ⟨heq.1.symm, heq.2.1.symm, heq.2.2.symm⟩

end Times

/-! ## One by one -/

/-- Checks files one after another, each at its own time, and answers for each of them. -/
def checkEach (h : Host) (c : Checker) (d : Disk) :
    List (UInt64 × Path) → List (Path × Except CheckError FileResult) × Checker × Disk
  | [] => ([], c, d)
  | (now, path) :: rest =>
    let (answer, checked, d) := c.checkFile h now d path
    let (answers, last, d) := checkEach h checked d rest
    ((c.absolute path, answer) :: answers, last, d)

/-- The answers, those with a result apart from the others. -/
def Batch.of (answers : List (Path × Except CheckError FileResult)) : Batch where
  results := answers.filterMap fun answer => answer.2.toOption
  unread := answers.filterMap fun answer =>
    match answer.2 with
    | .ok _ => none
    | .error e => some (answer.1, e)

/-- While files are checked one after another, those that are still to be checked read as they did before. -/
def Undisturbed (h : Host) (c : Checker) (d : Disk) : List (UInt64 × Path) → Prop
  | [] => True
  | (now, path) :: rest =>
    (∀ visit ∈ rest,
      (c.checkFile h now d path).2.2.readText (c.absolute visit.2) = d.readText (c.absolute visit.2)) ∧
    Undisturbed h (c.checkFile h now d path).2.1 (c.checkFile h now d path).2.2 rest

variable {h : Host} {c c' : Checker} {d : Disk} {visits : List (UInt64 × Path)}

theorem absolute_eq_of_root (hroot : c'.root = c.root) : c'.absolute = c.absolute := by
  funext path
  rw [absolute, absolute, hroot]

theorem undisturbed_of_keeps {P : Disk → Prop} (hkeeps : h.Keeps P) (hd : P d)
    (hread : ∀ d', P d' → ∀ visit ∈ visits, d'.readText (c.absolute visit.2) = d.readText (c.absolute visit.2)) :
    c.Undisturbed h d visits := by
  induction visits generalizing c d with
  | nil => trivial
  | cons visit rest ih =>
    obtain ⟨now, path⟩ := visit
    have hran : P (c.checkFile h now d path).2.2 := checkFile_keeps hkeeps hd now c path
    have habsolute := absolute_eq_of_root (c.alike_checkFile h now d path).root
    have hafter := hread _ hran
    refine ⟨fun visit hvisit => hafter visit (List.mem_cons_of_mem _ hvisit), ih hran fun d' hd' visit hvisit => ?_⟩
    rw [habsolute, hread d' hd' visit (List.mem_cons_of_mem _ hvisit), hafter visit (List.mem_cons_of_mem _ hvisit)]

/-! ## Both ways -/

/-- What is read before all checks is read again before each of them, and entries that differ in their times only hold
for the same. -/
theorem checkRead_eq_checkEach (now : UInt64) (hsame : c.untimed = c'.untimed) (hleaves : c'.Undisturbed h d visits) :
    let read := c.checkRead h now d (visits.map fun visit =>
      (c'.absolute visit.2, hashOf d (c'.absolute visit.2)))
    let each := c'.checkEach h d visits
    read.1 = .of each.1 ∧ read.2.1.untimed = each.2.1.untimed ∧ read.2.2 = each.2.2 := by
  induction visits generalizing c c' d with
  | nil => exact ⟨rfl, hsame, rfl⟩
  | cons visit rest ih =>
    obtain ⟨moment, path⟩ := visit
    obtain ⟨hunchanged, hrest⟩ := hleaves
    have habsolute := absolute_eq_of_root (c'.alike_checkFile h moment d path).root
    cases hhash : hashOf d (c'.absolute path) with
    | error e =>
      have hcheck := checkFile_of_error h moment hhash
      rw [hcheck] at hrest
      obtain ⟨hbatch, hcheckers, hdisks⟩ := ih hsame hrest
      simp only [List.map_cons, checkRead, checkEach, hcheck, hhash]
      refine ⟨?_, hcheckers, hdisks⟩
      rw [hbatch]
      rfl
    | ok hash =>
      have hcheck := checkFile_of_ok h moment hhash
      obtain ⟨hresult, hchecker, hdisk⟩ :=
        checkHashed_congr hsame h now moment d (c'.absolute path) hash
      rw [hcheck] at hrest hunchanged habsolute
      have hread : (rest.map fun visit => (c'.absolute visit.2, hashOf d (c'.absolute visit.2))) =
          rest.map fun visit => ((c'.checkHashed h moment d (c'.absolute path) hash).2.1.absolute visit.2,
            hashOf (c'.checkHashed h moment d (c'.absolute path) hash).2.2
              ((c'.checkHashed h moment d (c'.absolute path) hash).2.1.absolute visit.2)) := by
        refine List.map_congr_left fun visit hvisit => ?_
        rw [habsolute, hashOf, hashOf, hunchanged visit hvisit]
      obtain ⟨hbatch, hcheckers, hdisks⟩ := ih hchecker hrest
      simp only [List.map_cons, checkRead, checkEach, hcheck, hhash, hread, hdisk]
      refine ⟨?_, hcheckers, hdisks⟩
      rw [hbatch, hresult]
      rfl

theorem paths_checkRead (now : UInt64) (files : List (Path × Except CheckError String)) :
    (c.checkRead h now d files).1.results.map FileResult.path = (files.filter fun file => file.2.isOk).map Prod.fst ∧
    (c.checkRead h now d files).1.unread.map Prod.fst = (files.filter fun file => !file.2.isOk).map Prod.fst := by
  induction files generalizing c d with
  | nil => exact ⟨rfl, rfl⟩
  | cons file rest ih =>
    obtain ⟨path, e | hash⟩ := file
    · obtain ⟨hresults, hunread⟩ := ih (c := c) (d := d)
      exact ⟨hresults, congrArg (path :: ·) hunread⟩
    · obtain ⟨hresults, hunread⟩ := ih (c := (c.checkHashed h now d path hash).2.1)
        (d := (c.checkHashed h now d path hash).2.2)
      refine ⟨?_, hunread⟩
      show (c.checkHashed h now d path hash).1.path :: _ = path :: _
      rw [path_checkHashed]
      exact congrArg (path :: ·) hresults

theorem isOk_hashOf (d : Disk) (path : Path) : (hashOf d path).isOk = (d.readText path).isOk := by
  rw [hashOf]
  cases d.readText path with
  | error e => rfl
  | ok text => rfl

theorem paths_of_hashOf (keep : Bool → Bool) (d : Disk) (paths : List Path) :
    ((paths.map fun path => (path, hashOf d path)).filter fun file => keep file.2.isOk).map Prod.fst =
      paths.filter fun path => keep (d.readText path).isOk := by
  induction paths with
  | nil => rfl
  | cons path rest ih =>
    rw [List.map_cons, List.filter_cons, List.filter_cons, ← ih, isOk_hashOf]
    split
    · rfl
    · rfl

/-- Checking files at once is checking them one by one. If no check changes a file that is still to be checked, both
give the same results and the same failures in the same order, leave the same disk, and leave checkers that differ at
most in the times of their entries. Each file is among the results or among the failures, in order, as it can be read
or not. -/
theorem checkFiles_eq_checkEach (now : UInt64) (hleaves : c.Undisturbed h d visits) :
    let batch := c.checkFiles h now d (visits.map Prod.snd)
    let each := c.checkEach h d visits
    let paths := visits.map fun visit => c.absolute visit.2
    batch.1 = .of each.1 ∧ batch.2.1.untimed = each.2.1.untimed ∧ batch.2.2 = each.2.2 ∧
    batch.1.results.map FileResult.path = paths.filter (fun path => (d.readText path).isOk) ∧
    batch.1.unread.map Prod.fst = paths.filter (fun path => !(d.readText path).isOk) := by
  intro batch each paths
  have hpaths : (visits.map Prod.snd).map c.absolute = paths := List.map_map
  have hread : batch = c.checkRead h now d (paths.map fun path => (path, hashOf d path)) := by
    show c.checkFiles h now d (visits.map Prod.snd) = _
    rw [checkFiles, hpaths]
  obtain ⟨hbatch, hcheckers, hdisks⟩ := checkRead_eq_checkEach (c := c) now rfl hleaves
  obtain ⟨hresults, hunread⟩ := paths_checkRead (c := c) (h := h) (d := d) now (paths.map fun path => (path, hashOf d path))
  have hfiles : (paths.map fun path => (path, hashOf d path)) =
      visits.map fun visit => (c.absolute visit.2, hashOf d (c.absolute visit.2)) := List.map_map
  rw [hread]
  refine ⟨?_, ?_, ?_, ?_, ?_⟩
  · rw [hfiles, hbatch]
  · rw [hfiles, hcheckers]
  · rw [hfiles, hdisks]
  · rw [hresults]
    exact paths_of_hashOf id d paths
  · rw [hunread]
    exact paths_of_hashOf not d paths

/-! ### A file that is checked twice -/

section Respelled

open Lifetime

/-- A file by both of its spellings, and another one that is not there between them. -/
def respelled : List (UInt64 × Path) := [(1, ⟨"a.yml"⟩), (2, ⟨"gone.yml"⟩), (3, ⟨"/w/a.yml"⟩)]

theorem absolute_respelled : (respelled.map fun visit => lintChecker.absolute visit.2) =
    [⟨"/w/a.yml"⟩, ⟨"/w/gone.yml"⟩, ⟨"/w/a.yml"⟩] := by
  show [(⟨"/w"⟩ : Path).join ⟨"a.yml"⟩, (⟨"/w"⟩ : Path).join ⟨"gone.yml"⟩, (⟨"/w"⟩ : Path).join ⟨"/w/a.yml"⟩] = _
  decide

theorem undisturbed_respelled : lintChecker.Undisturbed lintHost desk respelled := by
  have hkeeps : lintHost.Keeps (· = desk) := fun _ _ hd => hd
  refine undisturbed_of_keeps hkeeps rfl fun d hd visit _ => ?_
  rw [hd]

theorem readText_gone : desk.readText ⟨"/w/gone.yml"⟩ = .error .notFound :=
  Disk.readText_of_follow?_none ["w", "gone.yml"] (by decide) rfl

/-- The second answer for the file comes from the cache. -/
theorem results_respelled : (lintChecker.checkFiles lintHost 0 desk (respelled.map Prod.snd)).1.results =
    [lintResult, .cached ⟨"/w/a.yml"⟩ [truthyFinding]] := by
  have hpaths : (respelled.map Prod.snd).map lintChecker.absolute =
      [⟨"/w/a.yml"⟩, ⟨"/w/gone.yml"⟩, ⟨"/w/a.yml"⟩] := absolute_respelled
  have hthere : hashOf desk ⟨"/w/a.yml"⟩ = .ok deskHash := hashOf_of_readText readText_desk
  obtain ⟨e, hgone⟩ : ∃ e, hashOf desk ⟨"/w/gone.yml"⟩ = .error e := ⟨_, by rw [hashOf, readText_gone]⟩
  have hrecalls : lintChecker.Recalls lintSettings.cache [] := (invariant_start entries_lintChecker).recalls
  obtain ⟨c, hfirst⟩ := checkHashed_lintChecker 0
  have hsecond := hrecalls.checkHashed_again rfl hfirst rfl rfl lintHost 0
  rw [checkFiles, hpaths]
  simp only [List.map_cons, List.map_nil, hthere, hgone, checkRead, hfirst, hsecond]
  rfl

theorem checkFiles_eq_checkEach_respelled :
    (lintChecker.checkFiles lintHost 0 desk (respelled.map Prod.snd)).1 =
      .of (lintChecker.checkEach lintHost desk respelled).1 ∧
    (lintChecker.checkFiles lintHost 0 desk (respelled.map Prod.snd)).1.results.map
        (fun r => (r.path, r.fromCache, r.findings)) =
      [(⟨"/w/a.yml"⟩, false, [truthyFinding]), (⟨"/w/a.yml"⟩, true, [truthyFinding])] ∧
    (lintChecker.checkFiles lintHost 0 desk (respelled.map Prod.snd)).1.unread.map Prod.fst = [⟨"/w/gone.yml"⟩] := by
  obtain ⟨hbatch, -, -, -, hunread⟩ := checkFiles_eq_checkEach 0 undisturbed_respelled
  refine ⟨hbatch, ?_, ?_⟩
  · rw [results_respelled]
    rfl
  · rw [hunread, absolute_respelled]
    simp [readText_desk, readText_gone, Except.isOk, Except.toBool]

end Respelled

end Checker

end LintHub
