import LintHub.Proofs.Checking.History

/-!
# Checkers recall their history

* `Checker.episodesOfRead`, `Checker.episodesOfFix` and the others are the episodes of an operation, the newest first.
* `Checker.Recalls` : the checker knows what its history says.
* `Checker.Recalls.checkHashed` : a check answers as the history has it, and the checker recalls the check.
* `Checker.Recalls.checkHashed_again` : the same check made again is answered from the cache.
* `Checker.Recalls.checkRead`, `Checker.Recalls.fixFile` : so do the operations that are made of checks.
-/

namespace LintHub.Checker

open History

/-! ## Deeds -/

/-- The checks of files whose contents were read before. -/
def episodesOfRead (h : Host) (now : UInt64) (c : Checker) (d : Disk) :
    List (Path × Except CheckError String) → List Episode
  | [] => []
  | (_, .error _) :: rest => episodesOfRead h now c d rest
  | (path, .ok hash) :: rest =>
    let (result, after, disk) := c.checkHashed h now d path hash
    episodesOfRead h now after disk rest ++ [.checked path (c.currentKey h d hash) result]

/-- The checks of `checkFiles`. -/
def episodesOfChecks (h : Host) (now : UInt64) (c : Checker) (d : Disk) (paths : List Path) : List Episode :=
  c.episodesOfRead h now d ((paths.map c.absolute).map fun path => (path, hashOf d path))

/-- The check of `checkFile`, if the file can be read. -/
def episodesOfCheck (h : Host) (now : UInt64) (c : Checker) (d : Disk) (path : Path) : List Episode :=
  c.episodesOfChecks h now d [path]

/-- The episodes of `fixFile`: none if the tool did not run to its end. -/
def episodesOfFix (h : Host) (now : UInt64) (c : Checker) (d : Disk) (path : Path) (t : Tool) : List Episode :=
  match c.prepareFix d t (c.absolute path) with
  | .error _ => []
  | .ok command =>
    match h.execute d command c.root (c.limit t) with
    | (.error _, _) => []
    | (.ok _, d) =>
      (c.invalidate (c.absolute path)).episodesOfCheck h now d (c.absolute path) ++
        [.dropped (c.absolute (c.absolute path))]

theorem saved_notMem_episodesOfRead (h : Host) (now : UInt64) (c : Checker) (d : Disk)
    (files : List (Path × Except CheckError String)) : Episode.saved ∉ c.episodesOfRead h now d files := by
  induction files generalizing c d with
  | nil => simp [episodesOfRead]
  | cons file rest ih =>
    obtain ⟨path, e | hash⟩ := file
    · exact ih c d
    · rw [episodesOfRead]
      simpa using ih _ _

theorem saved_notMem_episodesOfFix (h : Host) (now : UInt64) (c : Checker) (d : Disk) (path : Path) (t : Tool) :
    Episode.saved ∉ c.episodesOfFix h now d path t := by
  unfold episodesOfFix
  split
  · simp
  · split
    · simp
    · rw [List.mem_append, not_or]
      exact ⟨saved_notMem_episodesOfRead h now _ _ _, by simp⟩

/-! ## Versions -/

variable {on : Bool} {past : List Episode} {h : Host} {now : UInt64} {c : Checker} {d : Disk} {path : Path}
  {hash : String}

theorem sorted_askVersions (h : Host) (c : Checker) (d : Disk) (tools : List Tool) :
    (c.askVersions h d tools).1.Sorted := by
  induction tools generalizing d with
  | nil => exact .nil
  | cons t ts ih =>
    unfold askVersions
    split
    · exact ih d
    · next program _ =>
      have hrest := ih (h.toolVersion d (.version t program) c.root).2
      dsimp only
      split
      · exact hrest.insert _ _
      · exact hrest

theorem versions_versionsNow (h : Host) (c : Checker) (d : Disk) :
    (c.versionsNow h d).2.1.versions = if c.cache.enabled then some (c.versionsNow h d).1 else c.versions := by
  unfold versionsNow knowVersions
  split
  · split
    · assumption
    · rfl
  · rfl

theorem sorted_versionsNow (hsorted : ∀ known, c.versions = some known → known.Sorted) (h : Host) (d : Disk) :
    (c.versionsNow h d).1.Sorted := by
  unfold versionsNow knowVersions
  split
  · split
    · next known hknown => exact hsorted known hknown
    · exact sorted_askVersions h c d _
  · exact .nil

/-! ## What a checker recalls -/

/-- A checker knows what its history says, and its tables are sorted. -/
structure Recalls (on : Bool) (past : List Episode) (c : Checker) : Prop where
  enabled : c.cache.enabled = enabled on past
  stored : ∀ path, c.cache.stored path = held on path past
  versions : c.versions = probed on past
  ordered : Cache.Ordered c.cache.entries
  sorted : ∀ known, c.versions = some known → known.Sorted

/-- Asking for the versions is part of a check, so that it is recalled with one that stores nothing new. -/
theorem Recalls.versionsNow {r : FileResult} (hc : c.Recalls on past)
    (hheld : ∀ other, held on other (.checked path (c.currentKey h d hash) r :: past) = held on other past) :
    (c.versionsNow h d).2.1.Recalls on (.checked path (c.currentKey h d hash) r :: past) where
  enabled := (c.alike_versionsNow h d).enabled.trans hc.enabled
  stored other := by rw [c.cache_versionsNow, hheld, hc.stored]
  versions := by rw [c.versions_versionsNow, hc.enabled, hc.versions, probed, currentKey]
  ordered := by
    rw [c.cache_versionsNow]
    exact hc.ordered
  sorted known hknown := by
    rw [c.versions_versionsNow] at hknown
    split at hknown
    · cases hknown
      exact sorted_versionsNow hc.sorted h d
    · exact hc.sorted known hknown

/-- A result without failures is recalled with its check once it is stored. -/
theorem Recalls.store {r : FileResult} (hc : c.Recalls on past) (hfail : r.failures = []) :
    ((c.versionsNow h d).2.1.store path ⟨c.currentKey h d hash, r.findings, now⟩).Recalls on
      (.checked path (c.currentKey h d hash) r :: past) := by
  cases hon : History.enabled on past with
  | false =>
    -- Nothing is stored while the cache is off.
    have hsame : (c.versionsNow h d).2.1.store path ⟨c.currentKey h d hash, r.findings, now⟩ =
        (c.versionsNow h d).2.1 := by
      rw [Checker.store, Cache.insert, c.cache_versionsNow, hc.enabled, hon, if_neg (by decide),
        ← c.cache_versionsNow h d]
    rw [hsame]
    exact hc.versionsNow fun other => by simp [held, hon]
  | true =>
    -- Apart from the entry that is stored it is as after a check that stores nothing.
    have hkept : (c.versionsNow h d).2.1.Recalls on (.checked path (c.currentKey h d hash)
        { r with failures := [⟨default, default⟩] } :: past) :=
      hc.versionsNow fun other => by simp [held]
    have hcache : (c.versionsNow h d).2.1.cache.enabled = true := by rw [c.cache_versionsNow, hc.enabled, hon]
    refine ⟨?_, fun other => ?_, hkept.versions, ?_, hkept.sorted⟩
    · exact (alike_store _ _ _).enabled.trans hkept.enabled
    · rw [Checker.store, Cache.stored_insert path _ other hcache, c.cache_versionsNow, hc.stored, held]
      simp [hfail, hon]
    · rw [Checker.store, Cache.insert, if_pos hcache]
      exact hkept.ordered.insert _ (sorted_versionsNow hc.sorted h d)

/-- Tools are asked for their versions once. -/
theorem Recalls.versions_currentKey (hc : c.Recalls on past) (h : Host) (d : Disk) (hash : String)
    (hon : History.enabled on past = true) {known : Table String} (hknown : probed on past = some known) :
    (c.currentKey h d hash).versions = known := by
  rw [currentKey, versionsNow_eq_of_known (hc.enabled.trans hon) (hc.versions.trans hknown)]

/-- An entry is found just when it is held. -/
theorem Recalls.valid?_eq_some_iff (hc : c.Recalls on past) {key : CacheKey} {findings : List Finding} :
    (∃ e, c.cache.valid? path key = some e ∧ e.findings = findings) ↔
      History.enabled on past = true ∧ held on path past = some (key, findings) := by
  rw [Cache.valid?_eq_some_iff, hc.enabled, hc.stored]

/-- A result of the tools is an answer when no entry was found. -/
theorem Recalls.answers_of_valid?_eq_none (hc : c.Recalls on past) {r : FileResult}
    (hvalid : c.cache.valid? path (c.currentKey h d hash) = none) (hpath : r.path = path)
    (hfresh : r.fromCache = false) : Answers on past path (c.currentKey h d hash) r where
  ofFile := hpath
  fromCache := by
    refine ⟨fun hcached => ?_, fun ⟨hon, findings, hheld⟩ => ?_⟩
    · rw [hfresh] at hcached
      cases hcached
    · obtain ⟨e, he, -⟩ := hc.valid?_eq_some_iff.2 ⟨hon, hheld⟩
      rw [hvalid] at he
      cases he
  unchanged hcached := by
    rw [hfresh] at hcached
    cases hcached
  versions hon known := hc.versions_currentKey h d hash hon

/-- An entry that was found is an answer. -/
theorem Recalls.answers_cached (hc : c.Recalls on past) {e : CacheEntry}
    (hvalid : c.cache.valid? path (c.currentKey h d hash) = some e) :
    Answers on past path (c.currentKey h d hash) (.cached path e.findings) := by
  obtain ⟨hon, hheld⟩ := hc.valid?_eq_some_iff.1 ⟨e, hvalid, rfl⟩
  refine ⟨rfl, ⟨fun _ => ⟨hon, e.findings, hheld⟩, fun _ => rfl⟩, fun _ => ⟨hheld, rfl⟩, fun hon known => ?_⟩
  exact hc.versions_currentKey h d hash hon

/-- A check answers as the history has it, and is recalled. -/
theorem Recalls.checkHashed (hc : c.Recalls on past) (h : Host) (now : UInt64) (d : Disk) (path : Path)
    (hash : String) :
    Answers on past path (c.currentKey h d hash) (c.checkHashed h now d path hash).1 ∧
      (c.checkHashed h now d path hash).2.1.Recalls on
        (.checked path (c.currentKey h d hash) (c.checkHashed h now d path hash).1 :: past) := by
  obtain ⟨e, hvalid, heq⟩ | ⟨hvalid, hfail, heq⟩ | ⟨hvalid, hfail, heq⟩ := c.checkHashed_cases h now d path hash
  · have hanswer := hc.answers_cached hvalid
    rw [heq]
    refine ⟨hanswer, hc.versionsNow fun other => ?_⟩
    -- The file holds what it held.
    rw [held]
    split
    · next hother => rw [← hother.1, (hanswer.unchanged rfl).1]
    · rfl
  · rw [heq]
    exact ⟨hc.answers_of_valid?_eq_none hvalid rfl rfl, hc.store hfail⟩
  · rw [heq]
    exact ⟨hc.answers_of_valid?_eq_none hvalid rfl rfl, hc.versionsNow fun other => by simp [held, hfail]⟩

/-- A check without failures that is made again is answered from the cache, if the settings are the same. The content
is, and the versions are not asked for again. -/
theorem Recalls.checkHashed_again {r : FileResult} {after : Checker} {ran d' : Disk} (hc : c.Recalls on past)
    (hon : History.enabled on past = true) (hfirst : c.checkHashed h now d path hash = (r, after, ran))
    (hfail : r.failures = []) (hsettings : c.settingsHash d' = c.settingsHash d) (h' : Host) (now' : UInt64) :
    (after.checkHashed h' now' d' path hash).1 = .cached path r.findings := by
  obtain ⟨-, hafter⟩ := hc.checkHashed h now d path hash
  have halike := c.alike_checkHashed h now d path hash
  rw [hfirst] at hafter halike
  have hkey : after.currentKey h' d' hash = c.currentKey h d hash := by
    have hversions := hafter.versions_currentKey h' d' hash hon (by rw [probed, if_pos hon])
    have hsame := (halike.settingsHash d').trans hsettings
    rw [currentKey] at hversions ⊢
    rw [currentKey, CacheKey.mk.injEq]
    exact ⟨rfl, hsame, hversions⟩
  have hheld : held on path (.checked path (c.currentKey h d hash) r :: past) =
      some (c.currentKey h d hash, r.findings) := by
    rw [held, if_pos ⟨rfl, hfail, hon⟩]
  obtain ⟨e, hvalid, hfindings⟩ := hafter.valid?_eq_some_iff.2 ⟨hon, hheld⟩
  rw [checkHashed_eq, hkey, hvalid, ← hfindings]

/-! ## Operations -/

theorem absolute_invalidate (c : Checker) (path other : Path) :
    (c.invalidate path).absolute other = c.absolute other := rfl

theorem Recalls.invalidate (hc : c.Recalls on past) (path : Path) :
    (c.invalidate path).Recalls on (.dropped (c.absolute path) :: past) where
  enabled := hc.enabled
  stored other := by rw [Checker.invalidate, Cache.stored_erase, hc.stored, held]
  versions := hc.versions
  ordered := hc.ordered.erase _
  sorted := hc.sorted

theorem Recalls.disableCache (hc : c.Recalls on past) : c.disableCache.Recalls on (.switchedOff :: past) where
  enabled := rfl
  stored := hc.stored
  versions := hc.versions
  ordered := hc.ordered
  sorted := hc.sorted

/-- The checks of files whose contents were read before answer as the history has it, each after those before it. -/
theorem Recalls.checkRead (hc : c.Recalls on past) (htrue : Truthful on past) (h : Host) (now : UInt64) (d : Disk)
    (files : List (Path × Except CheckError String)) :
    Truthful on (c.episodesOfRead h now d files ++ past) ∧
      (c.checkRead h now d files).2.1.Recalls on (c.episodesOfRead h now d files ++ past) := by
  induction files generalizing c d past with
  | nil => exact ⟨htrue, hc⟩
  | cons file rest ih =>
    obtain ⟨path, e | hash⟩ := file
    · rw [checkRead_error, episodesOfRead]
      exact ih hc htrue d
    · obtain ⟨hanswer, hafter⟩ := hc.checkHashed h now d path hash
      rw [checkRead_ok, episodesOfRead, List.append_assoc, List.singleton_append]
      exact ih hafter ⟨hanswer, htrue⟩ _

theorem Recalls.checkFile (hc : c.Recalls on past) (htrue : Truthful on past) (h : Host) (now : UInt64) (d : Disk)
    (path : Path) :
    Truthful on (c.episodesOfCheck h now d path ++ past) ∧
      (c.checkFile h now d path).2.1.Recalls on (c.episodesOfCheck h now d path ++ past) := by
  rw [checkFile_snd]
  exact hc.checkRead htrue h now d _

theorem Recalls.checkFiles (hc : c.Recalls on past) (htrue : Truthful on past) (h : Host) (now : UInt64) (d : Disk)
    (paths : List Path) :
    Truthful on (c.episodesOfChecks h now d paths ++ past) ∧
      (c.checkFiles h now d paths).2.1.Recalls on (c.episodesOfChecks h now d paths ++ past) :=
  hc.checkRead htrue h now d _

/-- A mended file is dropped and checked. If the tool did not run to its end, nothing happens. -/
theorem Recalls.fixFile (hc : c.Recalls on past) (htrue : Truthful on past) (h : Host) (now : UInt64) (d : Disk)
    (path : Path) (t : Tool) :
    Truthful on (c.episodesOfFix h now d path t ++ past) ∧
      (c.fixFile h now d path t).2.1.Recalls on (c.episodesOfFix h now d path t ++ past) := by
  obtain ⟨e, hprepare, heq⟩ | ⟨command, ran, e, hprepare, hexecute, heq⟩ |
    ⟨command, ran, execution, hprepare, hexecute, heq⟩ := c.fixFile_cases h now d path t
  · rw [heq, episodesOfFix, hprepare]
    exact ⟨htrue, hc⟩
  · rw [heq, episodesOfFix, hprepare]
    simp only [hexecute]
    exact ⟨htrue, hc⟩
  · have hdropped := hc.invalidate (c.absolute path)
    rw [heq, episodesOfFix, hprepare]
    simp only [hexecute]
    rw [List.append_assoc]
    exact hdropped.checkFile htrue h now ran (c.absolute path)

/-! ## Answers -/

/-- A check in which a tool failed stores nothing. -/
theorem entries_checkHashed (h : Host) (now : UInt64) (c : Checker) (d : Disk) (path : Path) (hash : String)
    (hfail : (c.checkHashed h now d path hash).1.failures ≠ []) :
    (c.checkHashed h now d path hash).2.1.cache.entries = c.cache.entries := by
  obtain ⟨e, -, heq⟩ | ⟨-, hnone, heq⟩ | ⟨-, -, heq⟩ := c.checkHashed_cases h now d path hash
  · rw [heq] at hfail
    exact absurd rfl hfail
  · rw [heq] at hfail
    exact absurd hnone hfail
  · rw [heq, c.cache_versionsNow]

/-- A check of a file that can be read gives a result, which is the one that is recalled. -/
theorem Recalls.answers_checkFile (hc : c.Recalls on past) (h : Host) (now : UInt64) {text : String}
    (htext : d.readText (c.absolute path) = .ok text) :
    ∃ r, (c.checkFile h now d path).1 = .ok r ∧
      c.episodesOfCheck h now d path = [.checked (c.absolute path) (c.currentKey h d (contentHash text)) r] ∧
      Answers on past (c.absolute path) (c.currentKey h d (contentHash text)) r ∧
      (r.failures ≠ [] → (c.checkFile h now d path).2.1.cache.entries = c.cache.entries) := by
  have hhash : hashOf d (c.absolute path) = .ok (contentHash text) := hashOf_of_readText htext
  rw [checkFile_of_ok h now hhash]
  refine ⟨_, rfl, ?_, (hc.checkHashed h now d (c.absolute path) (contentHash text)).1, fun hfail => ?_⟩
  · rw [episodesOfCheck, episodesOfChecks, List.map_singleton, List.map_singleton, hhash]
    rfl
  · exact entries_checkHashed h now c d _ _ hfail

theorem readText_of_checkFile {r : FileResult} (hr : (c.checkFile h now d path).1 = .ok r) :
    ∃ text, d.readText (c.absolute path) = .ok text := by
  cases htext : d.readText (c.absolute path) with
  | ok text => exact ⟨text, rfl⟩
  | error e =>
    rw [checkFile_of_error h now (by rw [hashOf, htext])] at hr
    cases hr

/-- The results of `checkFiles` are those that are recalled, in order. -/
theorem results_checkRead (h : Host) (now : UInt64) (c : Checker) (d : Disk)
    (files : List (Path × Except CheckError String)) :
    (c.checkRead h now d files).1.results = (c.episodesOfRead h now d files).reverse.filterMap Episode.result? := by
  induction files generalizing c d with
  | nil => rfl
  | cons file rest ih =>
    obtain ⟨path, e | hash⟩ := file
    · exact ih c d
    · rw [episodesOfRead, List.reverse_append, List.reverse_singleton, List.singleton_append, List.filterMap_cons]
      exact congrArg _ (ih _ _)

/-- What a tool mended is checked anew. -/
theorem Recalls.answers_fixFile (hc : c.Recalls on past) {t : Tool} {r : FileResult}
    (hr : (c.fixFile h now d path t).1 = .ok r) :
    r.fromCache = false ∧
      ∃ key, c.episodesOfFix h now d path t = [.checked r.path key r, .dropped r.path] := by
  obtain ⟨e, hprepare, heq⟩ | ⟨command, ran, e, hprepare, hexecute, heq⟩ |
    ⟨command, ran, execution, hprepare, hexecute, heq⟩ := c.fixFile_cases h now d path t
  · rw [heq] at hr
    cases hr
  · rw [heq] at hr
    cases hr
  · rw [heq] at hr
    obtain ⟨text, htext⟩ := readText_of_checkFile hr
    obtain ⟨r', hr', hepisodes, hanswer, -⟩ := (hc.invalidate (c.absolute path)).answers_checkFile h now htext
    obtain rfl : r' = r := Except.ok.inj (hr'.symm.trans hr)
    rw [absolute_invalidate] at hepisodes hanswer
    refine ⟨?_, (c.invalidate (c.absolute path)).currentKey h ran (contentHash text), ?_⟩
    · -- The file holds nothing after it was dropped.
      cases hcached : r'.fromCache with
      | false => rfl
      | true =>
        obtain ⟨-, findings, hheld⟩ := hanswer.fromCache.1 hcached
        rw [held, if_pos rfl] at hheld
        cases hheld
    · rw [episodesOfFix, hprepare]
      simp only [hexecute, hepisodes, hanswer.ofFile]
      rfl

end LintHub.Checker
