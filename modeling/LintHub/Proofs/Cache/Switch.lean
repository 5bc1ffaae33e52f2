import LintHub.Proofs.Cache.Filling
import LintHub.Proofs.Json.Canonical

/-!
# A cache is a map with a switch

* `CacheRun` is a cache with its disk and a list of what became of it, `CacheRun.Operation` is what can be done with it,
  or to the disk. `CacheRun.held` says what the list has for a path.
* `CacheRun.Invariant` : the entries are what the list has, whatever is done.
* `CacheRun.refines_switched_map` : what a cache answers after any operations, and what the next ones do.
-/

namespace LintHub

/-! ## Entries of a text -/

theorem CacheEntry.sorted_of_ofJson? {j : Json} {e : CacheEntry} (h : ofJson? j = some e) : e.key.versions.Sorted := by
  have hversions {j? : Option Json} {versions : Table String}
      (h : Json.optional? versionsOfJson? [] j? = some versions) : versions.Sorted := by
    cases j? with
    | none =>
      obtain rfl := Option.some.inj h
      exact .nil
    | some j =>
      simp only [Json.optional?, versionsOfJson?, Option.bind_eq_bind, Option.bind_eq_some_iff] at h
      obtain ⟨fields, -, pairs, -, hpairs⟩ := h
      obtain rfl := Option.some.inj hpairs
      exact Table.sorted_ofList pairs
  rw [ofJson?] at h
  split at h
  · cases h
  · simp only [Option.bind_eq_bind, Option.bind_eq_some_iff] at h
    obtain ⟨_, -, _, -, _, -, _, -, versions, hread, _, -, _, -, _, -, _, -, he⟩ := h
    obtain rfl := Option.some.inj he
    exact hversions hread

namespace Cache

variable {c : Cache} {d : Disk} {entries : Table CacheEntry}

theorem ordered_of_parse? {text : String} {v : UInt32} (h : parse? text = some (v, entries)) : Ordered entries := by
  simp only [parse?, Option.bind_eq_bind, Option.bind_eq_some_iff] at h
  obtain ⟨j, -, h⟩ := h
  split at h
  · cases h
  · simp only [entriesOfJson?, Option.bind_eq_bind, Option.bind_eq_some_iff] at h
    obtain ⟨_, -, _, -, field, -, _, ⟨fields, -, pairs, hpairs, htable⟩, heq⟩ := h
    obtain ⟨-, rfl⟩ := Prod.mk.inj (Option.some.inj heq)
    obtain rfl := Option.some.inj htable
    refine ⟨Table.sorted_ofList pairs, ?_⟩
    intro e he
    obtain ⟨pair, -, hpair⟩ := Json.mem_of_mapM hpairs (Json.mem_ofList he)
    obtain ⟨read, hread, rfl⟩ := Option.map_eq_some_iff.1 hpair
    exact CacheEntry.sorted_of_ofJson? hread

/-! ## The file -/

/-- The entries in the cache's file, if it can be read, is of this format version and well formed. -/
def inFile? (c : Cache) (d : Disk) : Option (Table CacheEntry) :=
  match d.readText c.file with
  | .error _ => none
  | .ok text =>
    match parse? text with
    | some (version, entries) => if version = formatVersion then some entries else none
    | none => none

theorem inFile?_eq_some_iff : c.inFile? d = some entries ↔
    ∃ text, d.readText c.file = .ok text ∧ parse? text = some (formatVersion, entries) := by
  rw [inFile?]
  constructor
  · intro h
    split at h
    · cases h
    · next text hread =>
      split at h
      · next version found hparse =>
        split at h
        · next hversion =>
          obtain rfl := Option.some.inj h
          exact ⟨text, hread, by rw [hparse, hversion]⟩
        · cases h
      · cases h
  · rintro ⟨text, hread, hparse⟩
    simp only [hread, hparse, if_true]

theorem load_of_inFile? (hon : c.enabled = true) (h : c.inFile? d = some entries) :
    c.load d = .ok { c with entries } := by
  obtain ⟨text, hread, hparse⟩ := inFile?_eq_some_iff.1 h
  rw [load, hon, Disk.has_of_readText hread, hread]
  simp [hparse]

/-- A load that finds no such entries, or that is off, changes nothing if it succeeds. -/
theorem eq_of_load {loaded : Cache} (h : c.load d = .ok loaded) (hnone : c.enabled = true → c.inFile? d = none) :
    loaded = c := by
  rw [load] at h
  split at h
  · exact (Except.ok.inj h).symm
  · next hused =>
    have hon : c.enabled = true := by
      by_contra hoff
      simp [hoff] at hused
    split at h
    · cases h
    · next text hread =>
      split at h
      · cases h
      · next version entries hparse =>
        split at h
        · next hversion =>
          have hsome : c.inFile? d = some entries := inFile?_eq_some_iff.2 ⟨text, hread, by rw [hparse, hversion]⟩
          rw [hnone hon] at hsome
          cases hsome
        · exact (Except.ok.inj h).symm

theorem load_of_disabled (d : Disk) (h : c.enabled = false) : c.load d = .ok c := by
  rw [load, h]
  rfl

theorem insert_of_disabled (path : Path) (e : CacheEntry) (h : c.enabled = false) : c.insert path e = c := by
  rw [insert, h]
  rfl

/-- An entry holds if it is of the same content, the same settings and the same versions. -/
theorem isValid_iff (hordered : Ordered c.entries) (path : Path) (contentHash settingsHash : String)
    (versions : List (String × String)) :
    c.isValid path ⟨contentHash, settingsHash, Table.ofList versions⟩ = true ↔ ∃ e, c.get? path = some e ∧
      e.key.contentHash = contentHash ∧ e.key.settingsHash = settingsHash ∧
        ∀ tool, e.key.versions.get? tool = (Table.ofList versions).get? tool := by
  rw [isValid, valid?, Option.isSome_iff_exists]
  constructor
  · rintro ⟨e, he⟩
    obtain ⟨hget, hholds⟩ := Option.filter_eq_some_iff.1 he
    rw [CacheEntry.holdsFor, beq_iff_eq] at hholds
    refine ⟨e, hget, ?_⟩
    rw [hholds]
    exact ⟨rfl, rfl, fun tool => rfl⟩
  · rintro ⟨e, hget, rfl, rfl, hversions⟩
    refine ⟨e, Option.filter_eq_some_iff.2 ⟨hget, ?_⟩⟩
    have hentry : (path.text, e) ∈ c.entries := by
      rw [get?] at hget
      split at hget
      · exact Table.mem_of_get? hget
      · cases hget
    have hsame := Table.eq_of_get?_eq (hordered.2 _ hentry) (Table.sorted_ofList versions) hversions
    rw [CacheEntry.holdsFor, beq_iff_eq, ← hsame]

end Cache

/-! ## Operations -/

/-- What became of a cache. -/
inductive CacheRun.Change where
  /-- An entry was put, whether the cache was on or off. -/
  | put (p : Cache.Put)
  | dropped (path : Path)
  | cleared
  | switched (on : Bool)
  /-- The entries were replaced by those of the cache's file. -/
  | replaced (entries : Table CacheEntry)

/-- A cache with its disk, and what became of it, the newest first. -/
structure CacheRun where
  cache : Cache
  disk : Disk
  past : List CacheRun.Change

namespace CacheRun

/-- What can be done with a cache, or to its disk. -/
inductive Operation where
  | set (p : Cache.Put)
  | get (path : Path)
  | isValid (path : Path) (key : CacheKey)
  | remove (path : Path)
  | clear
  | enable
  | disable
  | load
  | save
  /-- Someone else changes the disk, be it the cache's file or anything else. -/
  | edit (change : Disk → Disk)

def start (dir : Path) (d : Disk) : CacheRun := ⟨.new dir, d, []⟩

/-- The entries of the cache's file, if the cache is on. -/
def replacement? (s : CacheRun) : Option (Table CacheEntry) :=
  if s.cache.enabled then s.cache.inFile? s.disk else none

/-- What an operation does. Where a load or a save fails, the cache and the disk stay; what else a failed save leaves on
the disk is an edit. -/
def step (s : CacheRun) : Operation → CacheRun
  | .set p => ⟨s.cache.insert p.path p.entry, s.disk, .put p :: s.past⟩
  | .get _ => s
  | .isValid _ _ => s
  | .remove path => ⟨s.cache.erase path, s.disk, .dropped path :: s.past⟩
  | .clear => ⟨s.cache.clear, s.disk, .cleared :: s.past⟩
  | .enable => ⟨{ s.cache with enabled := true }, s.disk, .switched true :: s.past⟩
  | .disable => ⟨{ s.cache with enabled := false }, s.disk, .switched false :: s.past⟩
  | .load =>
    match s.cache.load s.disk with
    | .error _ => s
    | .ok c => ⟨c, s.disk, s.replacement?.toList.map .replaced ++ s.past⟩
  | .save =>
    match s.cache.save s.disk with
    | .error _ => s
    | .ok d => { s with disk := d }
  | .edit change => { s with disk := change s.disk }

def run (s : CacheRun) (operations : List Operation) : CacheRun := operations.foldl step s

/-- Whether the cache is on. -/
def isOn : List Change → Bool
  | [] => true
  | .switched on :: _ => on
  | .put _ :: past => isOn past
  | .dropped _ :: past => isOn past
  | .cleared :: past => isOn past
  | .replaced _ :: past => isOn past

/-- The entry that the cache has for a path, on or off: the last one that was put while it was on, unless the path was
dropped or the cache was cleared since then. Where the entries were replaced since then, it is that of the file. -/
def held (path : Path) : List Change → Option CacheEntry
  | [] => none
  | .put p :: past => if p.path = path ∧ isOn past = true then some p.entry else held path past
  | .dropped other :: past => if other = path then none else held path past
  | .cleared :: _ => none
  | .switched _ :: past => held path past
  | .replaced entries :: _ => entries.get? path.text

/-- The cache is what the list says. -/
structure Invariant (s : CacheRun) : Prop where
  enabled : s.cache.enabled = isOn s.past
  held : ∀ path : Path, s.cache.entries.get? path.text = held path s.past
  ordered : Cache.Ordered s.cache.entries

theorem invariant_start (dir : Path) (d : Disk) : Invariant (start dir d) := ⟨rfl, fun _ => rfl, .nil⟩

variable {s : CacheRun} {entries : Table CacheEntry}

/-- A load replaces all entries by those of the file. -/
theorem step_load_of_some (h : s.replacement? = some entries) :
    s.step .load = ⟨{ s.cache with entries }, s.disk, .replaced entries :: s.past⟩ := by
  have hload : s.cache.load s.disk = .ok { s.cache with entries } := by
    rw [replacement?] at h
    split at h
    · next hon => exact Cache.load_of_inFile? hon h
    · cases h
  rw [step, hload, h]
  rfl

/-- Otherwise it changes nothing, whether it fails or not. -/
theorem step_load_of_none (h : s.replacement? = none) : s.step .load = s := by
  rw [step]
  split
  · rfl
  · next c hload =>
    have hsame : c = s.cache := by
      apply Cache.eq_of_load hload
      intro hon
      rwa [replacement?, if_pos hon] at h
    rw [hsame, h]
    rfl

theorem Invariant.set (h : Invariant s) (p : Cache.Put) : Invariant (s.step (.set p)) := by
  cases hon : s.cache.enabled with
  | false =>
    have hoff : isOn s.past = false := by rw [← h.enabled, hon]
    rw [step, Cache.insert_of_disabled _ _ hon]
    refine ⟨h.enabled, ?_, h.ordered⟩
    intro path
    rw [h.held, CacheRun.held, if_neg (by simp [hoff])]
  | true =>
    rw [step, Cache.insert, if_pos hon]
    refine ⟨h.enabled, ?_, h.ordered.insert _ (Table.sorted_ofList p.versions)⟩
    intro path
    rw [Table.get?_insert_path, h.held, CacheRun.held, ← h.enabled, hon]
    simp only [and_true]

theorem Invariant.remove (h : Invariant s) (path : Path) : Invariant (s.step (.remove path)) := by
  refine ⟨h.enabled, ?_, h.ordered.erase path.text⟩
  intro other
  show (s.cache.entries.erase path.text).get? other.text = CacheRun.held other (.dropped path :: s.past)
  rw [Table.get?_erase_path, h.held, CacheRun.held]

theorem Invariant.load (h : Invariant s) : Invariant (s.step .load) := by
  cases hentries : s.replacement? with
  | none =>
    rw [step_load_of_none hentries]
    exact h
  | some entries =>
    rw [step_load_of_some hentries]
    rw [replacement?] at hentries
    split at hentries
    · obtain ⟨text, -, hparse⟩ := Cache.inFile?_eq_some_iff.1 hentries
      exact ⟨h.enabled, fun path => rfl, Cache.ordered_of_parse? hparse⟩
    · cases hentries

/-- Every operation keeps the cache what the list says. -/
theorem Invariant.step (h : Invariant s) (operation : Operation) : Invariant (s.step operation) := by
  cases operation with
  | set p => exact h.set p
  | get path => exact h
  | isValid path key => exact h
  | remove path => exact h.remove path
  | clear => exact ⟨h.enabled, fun path => rfl, .nil⟩
  | enable => exact ⟨rfl, h.held, h.ordered⟩
  | disable => exact ⟨rfl, h.held, h.ordered⟩
  | load => exact h.load
  | save =>
    rw [CacheRun.step]
    split
    · exact h
    · exact ⟨h.enabled, h.held, h.ordered⟩
  | edit change => exact ⟨h.enabled, h.held, h.ordered⟩

theorem Invariant.run (h : Invariant s) (operations : List Operation) : Invariant (s.run operations) := by
  induction operations generalizing s with
  | nil => exact h
  | cons operation operations ih => exact ih (h.step operation)

/-- A cache answers and acts as a map with a switch of which its list tells. -/
structure ActsAsMap (s : CacheRun) : Prop where
  enabled : s.cache.enabled = isOn s.past
  /-- While it is on, the entry of a path is that of the list. -/
  get? : ∀ path, s.cache.get? path = if isOn s.past then held path s.past else none
  isValid : ∀ path contentHash settingsHash versions,
    s.cache.isValid path ⟨contentHash, settingsHash, Table.ofList versions⟩ = true ↔
      isOn s.past = true ∧ ∃ e, held path s.past = some e ∧ e.key.contentHash = contentHash ∧
        e.key.settingsHash = settingsHash ∧ ∀ tool, e.key.versions.get? tool = (Table.ofList versions).get? tool
  /-- While it is off, nothing is put, loaded or saved, without an error. -/
  off : isOn s.past = false → (∀ path e, s.cache.insert path e = s.cache) ∧ s.cache.load s.disk = .ok s.cache ∧
    s.cache.save s.disk = .ok s.disk
  /-- A load takes all the entries of the file and succeeds, or leaves the cache and the disk as they were. -/
  load : isOn s.past = true → ∀ entries, s.cache.inFile? s.disk = some entries →
    s.cache.load s.disk = .ok { s.cache with entries }
  load_none : (isOn s.past = true → s.cache.inFile? s.disk = none) → s.step .load = s
  /-- What is saved is in the file. -/
  save : isOn s.past = true → ∀ saved, s.cache.save s.disk = .ok saved →
    s.cache.inFile? saved = some s.cache.entries

theorem Invariant.actsAsMap (h : Invariant s) : ActsAsMap s where
  enabled := h.enabled
  get? := by
    intro path
    rw [Cache.get?, h.enabled, h.held]
  isValid := by
    intro path contentHash settingsHash versions
    rw [Cache.isValid_iff h.ordered, Cache.get?, h.enabled, h.held]
    split
    · next hon => simp [hon]
    · next hoff => simp [hoff]
  off := by
    intro hoff
    rw [← h.enabled] at hoff
    exact ⟨fun path e => Cache.insert_of_disabled path e hoff, Cache.load_of_disabled s.disk hoff,
      Cache.save_of_disabled s.disk hoff⟩
  load := by
    intro hon entries hentries
    exact Cache.load_of_inFile? (h.enabled.trans hon) hentries
  load_none := by
    intro hnone
    apply step_load_of_none
    rw [replacement?]
    split
    · next hon => exact hnone (h.enabled.symm.trans hon)
    · rfl
  save := by
    intro hon saved hsave
    obtain ⟨made, hwrite⟩ := Cache.write_of_save hsave (h.enabled.trans hon)
    exact Cache.inFile?_eq_some_iff.2 ⟨s.cache.render, (Disk.readText_write hwrite).1, Cache.parse?_render h.ordered⟩

/-- Whatever is done with a new cache and its disk, the cache answers and acts as a map with a switch. -/
theorem refines_switched_map (dir : Path) (d : Disk) (operations : List Operation) :
    ActsAsMap ((start dir d).run operations) :=
  ((invariant_start dir d).run operations).actsAsMap

end CacheRun

end LintHub
