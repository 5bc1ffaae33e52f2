import LintHub.Proofs.Cache.RoundTrip
import LintHub.Proofs.Disk.Names

/-!
# A cache that was saved is loaded

* `Cache.load_of_sameAt` : what is loaded depends on the cache's file only.
* `Cache.save_of_follow?` : a cache is saved in a new file of its directory.
* `Cache.load_save` : after a save, a cache of the same directory loads the saved entries.
-/

namespace LintHub.Cache

theorem load_of_sameAt {c : Cache} {d d' : Disk} (h : Disk.SameAt c.file d d') : c.load d' = c.load d := by
  rw [load, load, h.1, h.2]

/-- Loading changes the entries only. -/
theorem alike_of_load {c loaded : Cache} {d : Disk} (h : c.load d = .ok loaded) :
    loaded.dir = c.dir ∧ loaded.enabled = c.enabled := by
  rw [load] at h
  split at h
  · cases h
    exact ⟨rfl, rfl⟩
  · split at h
    · cases h
    · split at h
      · cases h
      · cases h
        split <;> exact ⟨rfl, rfl⟩

theorem save_of_disabled {c : Cache} (d : Disk) (h : c.enabled = false) : c.save d = .ok d := by
  rw [save, h]
  rfl

/-- A cache is saved where its directory can be made, and nothing stands in the place of its file. -/
theorem save_of_follow? {c : Cache} {d made : Disk} {loc : Location} (names : List String) (hon : c.enabled = true)
    (hmade : d.makeDirs c.dir = .ok made) (hplain : Disk.IsPlain c.file names)
    (hfree : made.follow? [] names = some (loc, none)) :
    c.save d = .ok (made.put loc (.file c.render.toUTF8 false)) := by
  rw [save, hon, hmade]
  simp only [Disk.write_of_follow? names hplain hfree, Bool.not_true, Bool.false_eq_true, if_false]

/-- A successful save of a cache in use wrote the cache's text to its file. -/
theorem write_of_save {c : Cache} {d saved : Disk} (hsave : c.save d = .ok saved) (hon : c.enabled = true) :
    ∃ made : Disk, made.write c.file c.render = .ok saved := by
  rw [save, hon] at hsave
  simp only [Bool.not_true, Bool.false_eq_true, if_false] at hsave
  split at hsave
  · cases hsave
  · next made _ =>
    split at hsave
    · cases hsave
    · next written hwrite =>
      cases hsave
      exact ⟨made, hwrite⟩

/-- What is saved is loaded by the next cache of the directory. -/
theorem load_save {c : Cache} {d saved : Disk} (fresh : Cache) (hsave : c.save d = .ok saved) (hon : c.enabled = true)
    (hordered : Ordered c.entries) (hdir : fresh.dir = c.dir) (hfresh : fresh.enabled = true) :
    fresh.load saved = .ok { fresh with entries := c.entries } := by
  obtain ⟨made, hwrite⟩ := write_of_save hsave hon
  obtain ⟨htext, hhas⟩ := Disk.readText_write hwrite
  have hfile : fresh.file = c.file := by rw [file, file, hdir]
  rw [load, hfile, hhas, htext, hfresh]
  simp [parse?_render hordered]

end LintHub.Cache
