import LintHub.Proofs.Cache.RoundTrip
import LintHub.Proofs.Disk.Names
import LintHub.Proofs.Json.Wanted

/-!
# Cache files of other versions

The entries of a cache's file are read before its format version counts. So a file of another version is passed over
only if its entries are laid out as those of this version.

* `Cache.layout?` : the entries that the fields of a file hold, whatever version they name.
* `Cache.load_of_other_version` : what becomes of a file of another version.
* `Cache.layout?_of_lookup_eq_none`, `Cache.layout?_of_asFields?_eq_none`, `Cache.layout?_of_missing_field` : files
  of another layout.
* `Cache.load_other_version_iff` : exactly when a file of another version leaves the cache as it is.
-/

namespace LintHub

namespace CacheEntry

/-- The fields that an entry cannot do without. -/
def requiredFields : List String := ["content_hash", "config_hash", "diagnostics", "created_at"]

theorem lookup_of_ofJson? {fields : List (String × Json)} {e : CacheEntry} (h : ofJson? (.obj fields) = some e)
    {name : String} (hname : name ∈ requiredFields) : Json.lookup name fields ≠ none := by
  simp only [ofJson?, Json.isRecord, Json.field?, Bool.not_true, Bool.false_eq_true, if_false, Option.bind_eq_bind,
    Option.bind_eq_some_iff] at h
  obtain ⟨_, hcontent, _, -, _, hsettings, _, -, _, -, _, hfindings, _, -, _, hcreated, -⟩ := h
  simp only [requiredFields, List.mem_cons, List.not_mem_nil, or_false] at hname
  rcases hname with rfl | rfl | rfl | rfl
  · simp [hcontent]
  · simp [hsettings]
  · simp [hfindings]
  · simp [hcreated]

end CacheEntry

namespace Cache

/-- The entries that the fields of a cache's file hold, whatever version they name. -/
def layout? (fields : List (String × Json)) : Option (Table CacheEntry) :=
  (shape.keepFields [] fields).bind fun kept => (Json.lookup "entries" kept).bind entriesOfJson?

section Layout

variable {c : Cache} {d : Disk} {text : String} {fields : List (String × Json)} {v : UInt32}

theorem shape_fieldAt_version : shape.fieldAt "version" = some .whole := rfl

theorem shape_fieldAt_entries : shape.fieldAt "entries" = some (.entries CacheEntry.shape) := rfl

/-- A text that names a version is read as the version and the entries. -/
theorem parse?_eq_layout? (htext : Json.parse? text = some (.obj fields))
    (hversion : Json.lookup "version" fields = some (.nat v.toNat)) :
    parse? text = (layout? fields).map fun entries => (v, entries) := by
  rw [parse?, Json.parseAs?_eq_keep shape htext, Json.Shape.keep, layout?]
  cases hkept : shape.keepFields [] fields with
  | none => rfl
  | some kept =>
    have hnumber : Json.lookup "version" kept = some (.nat v.toNat) := by
      rw [Json.lookup_keepFields shape_fieldAt_version hkept, hversion]
      rfl
    simp only [Option.map_some, Option.bind_eq_bind, Option.bind_some, Json.isRecord, Bool.not_true,
      Bool.false_eq_true, if_false, Json.field?, hnumber, Json.word?_nat]
    cases Json.lookup "entries" kept with
    | none => rfl
    | some j =>
      simp only [Option.bind_some]
      cases entriesOfJson? j <;> rfl

/-- A file of another version leaves the cache as it is if its entries have the layout, and cannot be read if not. -/
theorem load_of_other_version (hon : c.enabled = true) (hread : d.readText c.file = .ok text)
    (htext : Json.parse? text = some (.obj fields))
    (hversion : Json.lookup "version" fields = some (.nat v.toNat)) (hother : v ≠ formatVersion) :
    c.load d = if (layout? fields).isSome then .ok c else .error (.corrupted "") := by
  rw [load, hon, Disk.has_of_readText hread, hread]
  simp only [Bool.not_true, Bool.or_self, Bool.false_eq_true, if_false, parse?_eq_layout? htext hversion]
  cases layout? fields with
  | none => rfl
  | some entries => simp only [Option.map_some, Option.isSome_some, if_true, if_neg hother]

theorem layout?_of_lookup_eq_none (h : Json.lookup "entries" fields = none) : layout? fields = none := by
  rw [layout?]
  cases hkept : shape.keepFields [] fields with
  | none => rfl
  | some kept =>
    rw [Option.bind_some, Json.lookup_keepFields shape_fieldAt_entries hkept, h]
    rfl

theorem layout?_of_asFields?_eq_none {j : Json} (h : Json.lookup "entries" fields = some j)
    (hj : j.asFields? = none) : layout? fields = none := by
  rw [layout?]
  cases hkept : shape.keepFields [] fields with
  | none => rfl
  | some kept =>
    rw [Option.bind_some, Json.lookup_keepFields shape_fieldAt_entries hkept, h, Option.bind_some]
    cases j with
    | obj fields => cases hj
    | arr items =>
      rw [Json.Shape.keep]
      cases Json.Shape.keepItems (.entries CacheEntry.shape) 0 items <;> rfl
    | _ => rfl

theorem layout?_of_missing_field {entries entry : List (String × Json)} {path name : String}
    (h : Json.lookup "entries" fields = some (.obj entries)) (hentry : (path, .obj entry) ∈ entries)
    (hname : name ∈ CacheEntry.requiredFields) (hmissing : Json.lookup name entry = none) : layout? fields = none := by
  have hshape : ∃ inner, CacheEntry.shape.fieldAt name = some inner := by
    simp only [CacheEntry.requiredFields, List.mem_cons, List.not_mem_nil, or_false] at hname
    rcases hname with rfl | rfl | rfl | rfl <;> exact ⟨_, rfl⟩
  obtain ⟨inner, hinner⟩ := hshape
  rw [layout?]
  cases hkept : shape.keepFields [] fields with
  | none => rfl
  | some kept =>
    rw [Option.bind_some, Json.lookup_keepFields shape_fieldAt_entries hkept, h, Option.bind_some,
      Json.Shape.keep]
    cases hpaths : Json.Shape.keepFields (.entries CacheEntry.shape) [] entries with
    | none => rfl
    | some paths =>
      have hinside : (Json.Shape.entries CacheEntry.shape).fieldAt path = some CacheEntry.shape := rfl
      obtain ⟨k, hk, hmem⟩ := Json.mem_keepFields hinside hpaths hentry
      obtain ⟨keptEntry, hkeptEntry, rfl⟩ := Option.map_eq_some_iff.1 hk
      have hnone : CacheEntry.ofJson? (.obj keptEntry) = none := by
        refine Option.eq_none_iff_forall_ne_some.2 fun e he => CacheEntry.lookup_of_ofJson? he hname ?_
        rw [Json.lookup_keepFields hinner hkeptEntry, hmissing, Option.bind_none]
      refine Option.eq_none_iff_forall_ne_some.2 fun table htable => ?_
      simp only [Option.map_some, Option.bind_some, entriesOfJson?, Json.asFields?, Option.bind_eq_bind,
        Option.bind_eq_some_iff] at htable
      obtain ⟨pairs, hpairs, -⟩ := htable
      obtain ⟨pair, hpair⟩ := Json.read_of_mapM hpairs hmem
      simp [hnone] at hpair

/-- A file of another version is passed over exactly if its entries are laid out as this version lays them out.
Without that, be it for no entries, for entries that are no object, or for an entry that lacks a field, the cache
calls it corrupted. -/
theorem load_other_version_iff (hon : c.enabled = true) (hread : d.readText c.file = .ok text)
    (htext : Json.parse? text = some (.obj fields))
    (hversion : Json.lookup "version" fields = some (.nat v.toNat)) (hother : v ≠ formatVersion) :
    (c.load d = .ok c ↔ (layout? fields).isSome = true) ∧
      (layout? fields = none → c.load d = .error (.corrupted "")) ∧
      (Json.lookup "entries" fields = none → layout? fields = none) ∧
      (∀ j, Json.lookup "entries" fields = some j → j.asFields? = none → layout? fields = none) ∧
      ∀ entries entry path, Json.lookup "entries" fields = some (.obj entries) → (path, .obj entry) ∈ entries →
        ∀ name ∈ CacheEntry.requiredFields, Json.lookup name entry = none → layout? fields = none := by
  have hload := load_of_other_version hon hread htext hversion hother
  refine ⟨?_, fun hnone => by simp [hload, hnone], layout?_of_lookup_eq_none, fun j => layout?_of_asFields?_eq_none,
    fun entries entry path h hentry name => layout?_of_missing_field h hentry⟩
  rw [hload]
  cases layout? fields <;> simp

end Layout

/-- A directory whose cache file says version 2 and nothing else. -/
def laterDisk : Disk :=
  ⟨[(["c"], .dir), (["c", "cache.json"], .file "\x7b\"version\":2\x7d".toUTF8 false)], []⟩

theorem load_other_version_iff_later :
    (Cache.new ⟨"/c"⟩).load laterDisk = .error (.corrupted "") ∧ formatVersion ≠ 2 := by
  have hread : laterDisk.readText (Cache.new ⟨"/c"⟩).file = .ok "\x7b\"version\":2\x7d" :=
    Disk.readText_of_follow? ["c", "cache.json"] (by decide) rfl
  have htext : Json.parse? "\x7b\"version\":2\x7d" = some (.obj [("version", .nat 2)]) := by rfl
  obtain ⟨-, hcorrupted, hentries, -⟩ :=
    load_other_version_iff (v := 2) rfl hread htext rfl (by decide)
  exact ⟨hcorrupted (hentries rfl), by decide⟩

end Cache

end LintHub
