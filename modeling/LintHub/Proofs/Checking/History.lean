import LintHub.Proofs.Cache.RoundTrip
import LintHub.Proofs.Checking.Runs

/-!
# What a checker remembers of its history

A history is a list of episodes, the newest first. It says what a checker should know, without a look at the checker:

* `History.enabled` : whether results are stored and used.
* `History.held` : the result that counts for a file: that of its latest check without failures, unless it was dropped
  since then. A new checker starts from what was held at the last save.
* `History.checked_of_held_or_kept` : that result is of a check of this very file while the cache was in use.
* `History.probed` : the versions of the tools, as this checker was told them.
* `History.Answers` : a check answers as the history before it has it.
* `Cache.stored` : what a cache's entries have for a file.
-/

namespace LintHub

/-- What happened to a checker, as far as its later answers depend on it. -/
inductive Episode where
  /-- A file was checked; the key is what the result depends on. -/
  | checked (path : Path) (key : CacheKey) (result : FileResult)
  /-- What is known of a file was dropped, by hand or after a tool mended the file. -/
  | dropped (path : Path)
  /-- The cache was switched off. -/
  | switchedOff
  /-- The cache's file was written. While the cache is off, a save writes nothing and is no episode. -/
  | saved
  /-- A new checker of the same settings and root took the place of the old one. -/
  | restarted

namespace Episode

/-- The result of a check. -/
def result? : Episode → Option FileResult
  | checked _ _ r => some r
  | _ => none

end Episode

namespace History

/-! ## What a history says -/

/-- Whether the cache is in use. `on` is what the settings say of a new checker. -/
def enabled (on : Bool) : List Episode → Bool
  | [] => on
  | .restarted :: _ => on
  | .switchedOff :: _ => false
  | .checked .. :: past => enabled on past
  | .dropped _ :: past => enabled on past
  | .saved :: past => enabled on past

mutual

/-- The key and the findings that are held for a file. -/
def held (on : Bool) (path : Path) : List Episode → Option (CacheKey × List Finding)
  | [] => none
  | .checked other key r :: past =>
    if other = path ∧ r.failures = [] ∧ enabled on past = true then some (key, r.findings) else held on path past
  | .dropped other :: past => if other = path then none else held on path past
  | .switchedOff :: past => held on path past
  | .saved :: past => held on path past
  | .restarted :: past => kept on path past

/-- The key and the findings for a file that the cache's file has. -/
def kept (on : Bool) (path : Path) : List Episode → Option (CacheKey × List Finding)
  | [] => none
  | .saved :: past => held on path past
  | .checked .. :: past => kept on path past
  | .dropped _ :: past => kept on path past
  | .switchedOff :: past => kept on path past
  | .restarted :: past => kept on path past

end

/-- The versions of the tools, once a check of this checker asked for them. -/
def probed (on : Bool) : List Episode → Option (Table String)
  | [] => none
  | .restarted :: _ => none
  | .checked _ key _ :: past => if enabled on past then some key.versions else probed on past
  | .dropped _ :: past => probed on past
  | .switchedOff :: past => probed on past
  | .saved :: past => probed on past

/-- A check with that key answers as the history before it has it. -/
structure Answers (on : Bool) (past : List Episode) (path : Path) (key : CacheKey) (r : FileResult) : Prop where
  /-- The result is that of the file. -/
  ofFile : r.path = path
  /-- It comes from the cache just when one is held that depends on the same. -/
  fromCache : r.fromCache = true ↔ enabled on past = true ∧ ∃ findings, held on path past = some (key, findings)
  /-- Then it has the findings that are held, and no failures. -/
  unchanged : r.fromCache = true → held on path past = some (key, r.findings) ∧ r.failures = []
  /-- Tools are asked for their versions once. -/
  versions : enabled on past = true → ∀ known, probed on past = some known → key.versions = known

/-- Every check of the history answered as the history before it has it. -/
def Truthful (on : Bool) : List Episode → Prop
  | [] => True
  | .checked path key r :: past => Answers on past path key r ∧ Truthful on past
  | .dropped _ :: past => Truthful on past
  | .switchedOff :: past => Truthful on past
  | .saved :: past => Truthful on past
  | .restarted :: past => Truthful on past

/-- What is held for a file, or kept in the cache's file, is from a check of that file without failures, made while the
cache was in use. -/
theorem checked_of_held_or_kept {on : Bool} {path : Path} {past : List Episode} {key : CacheKey}
    {findings : List Finding}
    (h : held on path past = some (key, findings) ∨ kept on path past = some (key, findings)) :
    ∃ newer r older, past = newer ++ .checked path key r :: older ∧ r.findings = findings ∧ r.failures = [] ∧
      enabled on older = true := by
  induction past with
  | nil => rcases h with h | h <;> cases h
  | cons episode past ih =>
    have hlater (h : held on path past = some (key, findings) ∨ kept on path past = some (key, findings)) :
        ∃ newer r older, episode :: past = newer ++ .checked path key r :: older ∧ r.findings = findings ∧
          r.failures = [] ∧ enabled on older = true := by
      obtain ⟨newer, r, older, rfl, hr⟩ := ih h
      exact ⟨episode :: newer, r, older, rfl, hr⟩
    cases episode with
    | checked other otherKey r =>
      rcases h with h | h
      · rw [held] at h
        split at h
        · next hstored =>
          obtain ⟨rfl, hfail, hon⟩ := hstored
          cases h
          exact ⟨[], r, past, rfl, rfl, hfail, hon⟩
        · exact hlater (.inl h)
      · exact hlater (.inr h)
    | dropped other =>
      rcases h with h | h
      · rw [held] at h
        split at h
        · cases h
        · exact hlater (.inl h)
      · exact hlater (.inr h)
    | switchedOff => exact hlater h
    | saved => exact hlater (.inl (h.elim id id))
    | restarted => exact hlater (.inr (h.elim id id))

/-- Only saves change what the cache's file has. -/
theorem kept_append {on : Bool} {path : Path} {episodes : List Episode} (past : List Episode)
    (h : Episode.saved ∉ episodes) : kept on path (episodes ++ past) = kept on path past := by
  induction episodes with
  | nil => rfl
  | cons episode episodes ih =>
    have hrest := ih fun hmem => h (List.mem_cons_of_mem _ hmem)
    cases episode with
    | saved => exact absurd (List.mem_cons_self ..) h
    | checked => exact hrest
    | dropped => exact hrest
    | switchedOff => exact hrest
    | restarted => exact hrest

/-- A cache that the settings switch off is never in use. -/
theorem enabled_false (past : List Episode) : enabled false past = false := by
  induction past with
  | nil => rfl
  | cons episode past ih =>
    cases episode with
    | restarted => rfl
    | switchedOff => rfl
    | checked => exact ih
    | dropped => exact ih
    | saved => exact ih

end History

namespace Cache

/-- What the cache's entries have for a file, in use or not. -/
def stored (c : Cache) (path : Path) : Option (CacheKey × List Finding) :=
  (c.entries.get? path.text).map fun e => (e.key, e.findings)

theorem stored_insert {c : Cache} (path : Path) (e : CacheEntry) (other : Path) (h : c.enabled = true) :
    (c.insert path e).stored other = if path = other then some (e.key, e.findings) else c.stored other := by
  rw [stored, insert, if_pos h, Table.get?_insert_path, apply_ite (Option.map fun e : CacheEntry => (e.key, e.findings))]
  rfl

theorem stored_erase (c : Cache) (path other : Path) :
    (c.erase path).stored other = if path = other then none else c.stored other := by
  rw [stored, erase, Table.get?_erase_path, apply_ite (Option.map fun e : CacheEntry => (e.key, e.findings))]
  rfl

/-- An entry is found when the cache is in use and the entry is of the same key. -/
theorem valid?_eq_some_iff {c : Cache} {path : Path} {key : CacheKey} {findings : List Finding} :
    (∃ e, c.valid? path key = some e ∧ e.findings = findings) ↔
      c.enabled = true ∧ c.stored path = some (key, findings) := by
  unfold valid? get? stored CacheEntry.holdsFor
  cases c.enabled with
  | false => simp
  | true =>
    cases c.entries.get? path.text with
    | none => simp
    | some e =>
      constructor
      · rintro ⟨found, hfound, rfl⟩
        obtain ⟨heq, hkey⟩ := Option.filter_eq_some_iff.1 hfound
        cases heq
        simp_all
      · rintro ⟨-, heq⟩
        simp only [Option.map_some, Option.some.injEq, Prod.mk.injEq] at heq
        exact ⟨e, by simp [heq.1], heq.2⟩

end Cache

end LintHub
