import LintHub.Cache.Basic
import LintHub.Proofs.Finding.Json
import LintHub.Proofs.Table

/-!
# The text of a cache is read back

* `CacheEntry.ofJson?_toJson` : an entry whose versions are sorted is read as the entry.
* `Cache.Ordered` : the entries are sorted, and so are the versions of each.
* `Cache.parse?_render` : the text of such a cache is read as the format version and the entries.
-/

namespace LintHub

namespace CacheEntry

theorem versionsOfJson?_obj {versions : Table String} (h : versions.Sorted) :
    versionsOfJson? (.obj (versions.map fun (name, v) => (name, .str v))) = some versions := by
  simp only [versionsOfJson?, Json.asFields?, Option.bind_eq_bind, Option.bind_some]
  rw [Json.mapM_map_eq_some, Option.bind_some, Table.ofList_eq_self h]
  exact fun entry _ => rfl

theorem fits_toJson (e : CacheEntry) (depth : Nat) : Json.Fits (depth + 3) shape e.toJson := by
  have hcreated := e.createdAt.toNat_lt
  have hversions : Json.Fits (depth + 2) (.entries .whole)
      (.obj (e.key.versions.map fun (name, v) => (name, .str v))) := by
    rw [Json.Fits]
    refine ⟨Json.fitsFields_of_fieldAt (fun _ => rfl) fun field hfield => ?_, .inl rfl⟩
    obtain ⟨entry, -, rfl⟩ := List.mem_map.1 hfield
    exact Json.fits_str _ _ _
  have hfindings : Json.Fits (depth + 2) (.items Finding.shape) (.arr (e.findings.map Finding.toJson)) := by
    rw [Json.Fits]
    refine Json.fitsItems_of_itemAt (fun _ => rfl) (fun j hj => ?_) 0
    obtain ⟨f, -, rfl⟩ := List.mem_map.1 hj
    exact f.fits_toJson_shape depth
  rw [toJson, Json.Fits]
  refine ⟨?_, .inr (by simp)⟩
  exact ⟨⟨.whole, rfl, Json.fits_str _ _ _⟩, ⟨.whole, rfl, Json.fits_str _ _ _⟩, ⟨_, rfl, hversions⟩,
    ⟨_, rfl, hfindings⟩, ⟨.whole, rfl, Json.fits_nat _ _ (by omega)⟩, trivial⟩

theorem ofJson?_toJson {e : CacheEntry} (h : e.key.versions.Sorted) : ofJson? e.toJson = some e := by
  have hfindings : Json.listOf? Finding.ofJson? (.arr (e.findings.map Finding.toJson)) = some e.findings :=
    Json.mapM_map_eq_some fun f _ => f.ofJson?_toJson
  simp [ofJson?, toJson, Json.isRecord, Json.field?, Json.lookup, Json.asString?, Json.optional?,
    versionsOfJson?_obj h, hfindings, Json.long?_nat]

end CacheEntry

namespace Cache

/-- The entries and the versions of each are sorted. -/
def Ordered (entries : Table CacheEntry) : Prop := entries.Sorted ∧ ∀ e ∈ entries, e.2.key.versions.Sorted

theorem Ordered.nil : Ordered [] := ⟨.nil, by simp⟩

theorem Ordered.insert {entries : Table CacheEntry} (h : Ordered entries) (name : String) {e : CacheEntry}
    (he : e.key.versions.Sorted) : Ordered (entries.insert name e) := by
  refine ⟨h.1.insert name e, fun entry hentry => ?_⟩
  rcases Table.mem_insert hentry with rfl | hentry
  · exact he
  · exact h.2 entry hentry

theorem Ordered.erase {entries : Table CacheEntry} (h : Ordered entries) (name : String) :
    Ordered (entries.erase name) :=
  ⟨h.1.erase name, fun entry hentry => h.2 entry (List.mem_filter.1 hentry).1⟩

/-- The text of a cache is read as the entries. -/
theorem parse?_render {c : Cache} (h : Ordered c.entries) : parse? c.render = some (formatVersion, c.entries) := by
  have hentries : Json.Fits 126 (.entries CacheEntry.shape)
      (.obj (c.entries.map fun e => (e.1, e.2.toJson))) := by
    rw [Json.Fits]
    refine ⟨Json.fitsFields_of_fieldAt (fun _ => rfl) fun field hfield => ?_, .inl rfl⟩
    obtain ⟨entry, -, rfl⟩ := List.mem_map.1 hfield
    exact entry.2.fits_toJson 122
  have hfits : Json.Fits Json.maxDepth shape (.obj [("version", .nat formatVersion.toNat),
      ("entries", .obj (c.entries.map fun e => (e.1, e.2.toJson)))]) := by
    rw [Json.maxDepth, Json.Fits]
    refine ⟨?_, .inr (by simp)⟩
    exact ⟨⟨.whole, rfl, Json.fits_nat _ _ (by decide)⟩, ⟨_, rfl, hentries⟩, trivial⟩
  -- The entries come in the order of their names, so that building the table again changes nothing.
  have hread : entriesOfJson? (.obj (c.entries.map fun e => (e.1, e.2.toJson))) = some c.entries := by
    simp only [entriesOfJson?, Json.asFields?, Option.bind_eq_bind, Option.bind_some]
    rw [Json.mapM_map_eq_some, Option.bind_some, Table.ofList_eq_self h.1]
    intro entry hentry
    simp only [CacheEntry.ofJson?_toJson (h.2 entry hentry), Option.map_some]
  rw [parse?, render, Json.parseAs?_compact hfits]
  simp [Json.isRecord, Json.field?, Json.lookup, Json.word?_nat, hread]

end Cache

end LintHub
