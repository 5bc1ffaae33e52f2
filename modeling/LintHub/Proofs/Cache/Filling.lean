import LintHub.Proofs.Cache.Stored
import Mathlib.Data.List.Induction

/-!
# A cache that was filled is read back

* `Cache.Put` : a result that is put into a cache, with any map of versions.
* `Cache.filled` : the cache of a directory after some puts. The last put for a path counts (`Cache.get?_filled`).
* `Cache.save_eq_error_iff`, `Cache.exists_save_iff` : whether a cache can be saved depends on the disk, not on what it
  holds.
* `Cache.load_save_filled` : a new cache of the directory loads what was saved.
-/

namespace LintHub

theorem Disk.write_eq_error_iff (d : Disk) (p : Path) (a b : String) (e : OsError) :
    d.write p a = .error e ↔ d.write p b = .error e := by
  unfold write writeBytes
  split <;> simp

theorem Disk.exists_write_iff (d : Disk) (p : Path) (a b : String) :
    (∃ written, d.write p a = .ok written) ↔ ∃ written, d.write p b = .ok written := by
  unfold write writeBytes
  split <;> simp

namespace Cache

/-- Whether a cache in use can be saved depends on its directory and the disk only. -/
theorem save_eq_error_iff {c c' : Cache} (d : Disk) (e : CacheError) (hdir : c'.dir = c.dir) (hon : c.enabled = true)
    (hon' : c'.enabled = true) : c.save d = .error e ↔ c'.save d = .error e := by
  have hfile : c'.file = c.file := by rw [file, file, hdir]
  unfold save
  rw [hon, hon', hdir, hfile]
  cases d.makeDirs c.dir with
  | error os => rfl
  | ok made =>
    have hwrite := made.write_eq_error_iff c.file c.render c'.render
    cases h : made.write c.file c.render with
    | error os => simp [h, (hwrite os).1 h]
    | ok written =>
      cases h' : made.write c.file c'.render with
      | error os =>
        rw [(hwrite os).2 h'] at h
        cases h
      | ok written' => simp [h, h']

/-- A cache in use is saved just where its directory can be made and any text be written to its file. -/
theorem exists_save_iff {c : Cache} (d : Disk) (text : String) (hon : c.enabled = true) :
    (∃ saved, c.save d = .ok saved) ↔
      ∃ made written, d.makeDirs c.dir = .ok made ∧ made.write c.file text = .ok written := by
  rw [save, hon]
  cases d.makeDirs c.dir with
  | error e => simp
  | ok made =>
    have hwrite := made.exists_write_iff c.file c.render text
    cases h : made.write c.file c.render with
    | error e => simpa [h] using hwrite
    | ok written => simpa [h] using hwrite

/-- A result that is put into a cache. The versions come in any order, and the last of a tool counts. -/
structure Put where
  path : Path
  contentHash : String
  settingsHash : String
  versions : List (String × String)
  findings : List Finding
  createdAt : UInt64

def Put.entry (p : Put) : CacheEntry :=
  ⟨⟨p.contentHash, p.settingsHash, Table.ofList p.versions⟩, p.findings, p.createdAt⟩

/-- The cache of a directory after some puts, one after another. -/
def filled (dir : Path) (puts : List Put) : Cache := puts.foldl (fun c p => c.insert p.path p.entry) (.new dir)

theorem filled_append_singleton (dir : Path) (puts : List Put) (p : Put) :
    filled dir (puts ++ [p]) = (filled dir puts).insert p.path p.entry := by
  rw [filled, List.foldl_append]
  rfl

theorem alike_filled (dir : Path) (puts : List Put) :
    (filled dir puts).dir = dir ∧ (filled dir puts).enabled = true := by
  induction puts using List.reverseRecOn with
  | nil => exact ⟨rfl, rfl⟩
  | append_singleton puts p ih =>
    rw [filled_append_singleton, insert, if_pos ih.2]
    exact ih

theorem ordered_filled (dir : Path) (puts : List Put) : Ordered (filled dir puts).entries := by
  induction puts using List.reverseRecOn with
  | nil => exact .nil
  | append_singleton puts p ih =>
    rw [filled_append_singleton, insert, if_pos (alike_filled dir puts).2]
    exact ih.insert _ (Table.sorted_ofList p.versions)

theorem get?_filled (dir : Path) (puts : List Put) (path : Path) :
    (filled dir puts).get? path = (puts.reverse.find? fun p => p.path = path).map Put.entry := by
  induction puts using List.reverseRecOn with
  | nil => rfl
  | append_singleton puts p ih =>
    have hon := (alike_filled dir puts).2
    rw [get?, if_pos hon] at ih
    rw [filled_append_singleton, insert, if_pos hon, get?, if_pos hon, Table.get?_insert_path, ih, List.reverse_append,
      List.reverse_singleton, List.singleton_append, List.find?_cons]
    by_cases h : p.path = path <;> simp [h]

/-- However a cache was filled, a new cache of its directory loads exactly what was saved. A save fails only where
that of an empty cache does, and succeeds where the directory can be made and any text be written to the cache's file.
Every finding is read back from its text. -/
theorem load_save_filled (dir : Path) (puts : List Put) (d : Disk) :
    ((filled dir puts).save d).bind (Cache.new dir).load = ((filled dir puts).save d).map (fun _ => filled dir puts) ∧
    (∀ e, (filled dir puts).save d = .error e ↔ (Cache.new dir).save d = .error e) ∧
    (∀ text, (∃ saved, (filled dir puts).save d = .ok saved) ↔
      ∃ made written, d.makeDirs dir = .ok made ∧ made.write (Cache.new dir).file text = .ok written) ∧
    (∀ path, (filled dir puts).get? path = (puts.reverse.find? fun p => p.path = path).map Put.entry) ∧
    ∀ f : Finding, Finding.parse? f.toJson.compact = some f := by
  obtain ⟨hdir, hon⟩ := alike_filled dir puts
  refine ⟨?_, fun e => ?_, fun text => ?_, get?_filled dir puts, Finding.parse?_compact⟩
  · cases hsave : (filled dir puts).save d with
    | error e => rfl
    | ok saved =>
      have hload := load_save (Cache.new dir) hsave hon (ordered_filled dir puts) hdir.symm rfl
      have hsame : { Cache.new dir with entries := (filled dir puts).entries } = filled dir puts := by
        cases hcache : filled dir puts with
        | mk other entries enabled =>
          rw [hcache] at hdir hon
          rw [new, ← hdir, ← hon]
      show (Cache.new dir).load saved = .ok (filled dir puts)
      rw [hload, hsame]
  · exact save_eq_error_iff d e hdir.symm hon rfl
  · have hiff := exists_save_iff d text hon
    rwa [file, hdir] at hiff

/-- A directory without anything in it. -/
def bareDisk : Disk := ⟨[(["w"], .dir)], []⟩

/-- Two results for one file, and one for a file with an odd name between them. -/
def somePuts : List Put :=
  [⟨⟨"/w/a.yml"⟩, "aa", "cc", [], [], 1⟩,
    ⟨⟨"/w/\"b\".yml"⟩, "bb", "cc", [("yamllint", "1.35.1")],
      [(Finding.new ⟨"/w/\"b\".yml"⟩ "truthy" "two\nlines" .yamllint).placed 4294967295 2], 2⟩,
    ⟨⟨"/w/a.yml"⟩, "dd", "cc", [("yamllint", "1.35.1"), ("ansible-lint", "24.2.0"), ("yamllint", "1.36.0")], [], 3⟩]

theorem load_save_filled_somePuts :
    ∃ saved, (filled ⟨"/w/cache"⟩ somePuts).save bareDisk = .ok saved ∧
      (Cache.new ⟨"/w/cache"⟩).load saved = .ok (filled ⟨"/w/cache"⟩ somePuts) ∧
      (filled ⟨"/w/cache"⟩ somePuts).get? ⟨"/w/a.yml"⟩ =
        some ⟨⟨"dd", "cc", [("ansible-lint", "24.2.0"), ("yamllint", "1.36.0")]⟩, [], 3⟩ ∧
      (filled ⟨"/w/cache"⟩ somePuts).get? ⟨"/w/\"b\".yml"⟩ =
        some ⟨⟨"bb", "cc", [("yamllint", "1.35.1")]⟩,
          [(Finding.new ⟨"/w/\"b\".yml"⟩ "truthy" "two\nlines" .yamllint).placed 4294967295 2], 2⟩ := by
  obtain ⟨hload, -, hsave, hget, -⟩ := load_save_filled ⟨"/w/cache"⟩ somePuts bareDisk
  have hmade : bareDisk.makeDirs ⟨"/w/cache"⟩ = .ok (bareDisk.put ["w", "cache"] .dir) :=
    Disk.makeDirs_of_follow? ["w", "cache"] (by decide) (by decide) rfl
  have hwrite := Disk.write_of_follow? (d := bareDisk.put ["w", "cache"] .dir) (p := (Cache.new ⟨"/w/cache"⟩).file)
    ["w", "cache", "cache.json"] (by decide) rfl ""
  obtain ⟨saved, hsaved⟩ := (hsave "").2 ⟨_, _, hmade, hwrite⟩
  rw [hsaved] at hload
  refine ⟨saved, hsaved, hload, ?_, ?_⟩
  · rw [hget]
    rfl
  · rw [hget]
    rfl

end Cache

end LintHub
