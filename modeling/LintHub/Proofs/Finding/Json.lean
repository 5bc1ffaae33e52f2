import LintHub.Finding.Json
import LintHub.Proofs.Json.Record

/-!
# Findings are read back

* `Finding.fits_toJson_whole`, `Finding.fits_toJson_shape` : the reader wants all of a written finding, in full or by the
  shape of a finding.
* `Finding.ofJson?_toJson` : a written finding is read as the finding, and so is its text by `Finding.parse?_compact`.
-/

namespace LintHub.Finding

/-- The fields of a written finding. -/
def fields (f : Finding) : List (String × Json) :=
  [("file", .str f.file.text), ("line", .nat f.line.toNat), ("column", .nat f.column.toNat),
    ("source", .str f.tool.id), ("rule", .str f.rule), ("message", .str f.message),
    ("severity", .str f.severity.name), ("fixable", .bool f.fixable)] ++
    Json.fieldOf "detailed_explanation" f.explanation ++ Json.fieldOf "documentation_url" f.page ++
    Json.fieldOf "check_group" f.group

theorem toJson_eq (f : Finding) : f.toJson = .obj f.fields := rfl

theorem names_fields_sublist (f : Finding) : (f.fields.map (·.1)).Sublist fieldNames := by
  have hopt (name : String) (o : Option String) : ((Json.fieldOf name o).map (·.1)).Sublist [name] := by
    cases o <;> simp [Json.fieldOf]
  rw [fields, List.map_append, List.map_append, List.map_append]
  exact (((List.Sublist.refl _).append (hopt _ _)).append (hopt _ _)).append (hopt _ _)

theorem nodup_fields (f : Finding) : (f.fields.map (·.1)).Nodup :=
  (names_fields_sublist f).nodup (by decide)

theorem fits_of_mem_fields {f : Finding} {field : String × Json} (h : field ∈ f.fields) (depth : Nat) :
    Json.Fits depth .whole field.2 := by
  have hline := f.line.toNat_lt
  have hcolumn := f.column.toNat_lt
  simp only [fields, List.mem_append, Json.mem_fieldOf, List.mem_cons, List.not_mem_nil, or_false] at h
  rcases h with ((h | ⟨s, -, rfl⟩) | ⟨s, -, rfl⟩) | ⟨s, -, rfl⟩
  · rcases h with rfl | rfl | rfl | rfl | rfl | rfl | rfl | rfl
    · exact Json.fits_str _ _ _
    · exact Json.fits_nat _ _ (by omega)
    · exact Json.fits_nat _ _ (by omega)
    · exact Json.fits_str _ _ _
    · exact Json.fits_str _ _ _
    · exact Json.fits_str _ _ _
    · exact Json.fits_str _ _ _
    · exact Json.fits_bool _ _ _
  · exact Json.fits_str _ _ _
  · exact Json.fits_str _ _ _
  · exact Json.fits_str _ _ _

theorem fits_toJson_whole (f : Finding) (depth : Nat) : Json.Fits (depth + 1) .whole f.toJson :=
  Json.fits_obj_whole fun _ h => fits_of_mem_fields h depth

theorem fieldAt_shape {name : String} (h : name ∈ fieldNames) : shape.fieldAt name = some .whole := by
  have hall : ∀ name ∈ fieldNames, shape.fieldAt name = some .whole := by
    simp [fieldNames, shape, Json.Shape.fieldAt]
  exact hall name h

theorem fits_toJson_shape (f : Finding) (depth : Nat) : Json.Fits (depth + 1) shape f.toJson := by
  rw [toJson_eq, Json.Fits]
  refine ⟨?_, .inr (nodup_fields f)⟩
  have hmem : ∀ field ∈ f.fields, field.1 ∈ fieldNames := fun field hfield =>
    (names_fields_sublist f).subset (List.mem_map_of_mem hfield)
  have hfits : ∀ field ∈ f.fields, Json.Fits depth .whole field.2 := fun field hfield =>
    fits_of_mem_fields hfield depth
  generalize f.fields = fields at hmem hfits
  induction fields with
  | nil => exact trivial
  | cons field rest ih =>
    exact ⟨⟨.whole, fieldAt_shape (hmem field (by simp)), hfits field (by simp)⟩,
      ih (fun k hk => hmem k (by simp [hk])) fun k hk => hfits k (by simp [hk])⟩

theorem choice?_id (t : Tool) : Json.choice? Tool.ofId? (.str t.id) = some t := by
  cases t <;> decide

theorem choice?_name (s : Severity) : Json.choice? Severity.ofName? (.str s.name) = some s := by
  cases s <;> decide

/-- An absent text is a field that is left out. -/
theorem field?_optional (f : Finding) (place : Nat) (name : String) (o : Option String)
    (hsome : ∀ s, o = some s → (name, .str s) ∈ f.fields) (hnone : o = none → name ∉ f.fields.map (·.1)) :
    f.toJson.field? place name = o.map .str := by
  cases o with
  | some s => exact Json.lookup_of_mem (nodup_fields f) (hsome s rfl)
  | none => exact Json.lookup_of_notMem (hnone rfl)

theorem ofJson?_toJson (f : Finding) : ofJson? f.toJson = some f := by
  have hfield (place : Nat) (name : String) (j : Json) (h : (name, j) ∈ f.fields) :
      f.toJson.field? place name = some j := Json.lookup_of_mem (nodup_fields f) h
  have hrecord : (!f.toJson.isRecord fieldNames.length) = false := rfl
  have hfile := hfield 0 "file" (.str f.file.text) (by simp [fields])
  have hline := hfield 1 "line" (.nat f.line.toNat) (by simp [fields])
  have hcolumn := hfield 2 "column" (.nat f.column.toNat) (by simp [fields])
  have htool := hfield 3 "source" (.str f.tool.id) (by simp [fields])
  have hrule := hfield 4 "rule" (.str f.rule) (by simp [fields])
  have hmessage := hfield 5 "message" (.str f.message) (by simp [fields])
  have hseverity := hfield 6 "severity" (.str f.severity.name) (by simp [fields])
  have hfixable := hfield 7 "fixable" (.bool f.fixable) (by simp [fields])
  have hexplanation := field?_optional f 8 "detailed_explanation" f.explanation
    (fun s hs => by simp [fields, Json.fieldOf, hs])
    (fun hnone => by simp [fields, Json.mem_names_fieldOf, hnone, -List.mem_map])
  have hpage := field?_optional f 9 "documentation_url" f.page
    (fun s hs => by simp [fields, Json.fieldOf, hs])
    (fun hnone => by simp [fields, Json.mem_names_fieldOf, hnone, -List.mem_map])
  have hgroup := field?_optional f 10 "check_group" f.group
    (fun s hs => by simp [fields, Json.fieldOf, hs])
    (fun hnone => by simp [fields, Json.mem_names_fieldOf, hnone, -List.mem_map])
  simp only [ofJson?, hrecord, hfile, hline, hcolumn, htool, hrule, hmessage, hseverity, hfixable, hexplanation, hpage,
    hgroup, Json.asString?, Json.word?_nat, choice?_id, choice?_name, Json.optional?, Json.asBool?,
    Json.nullable?_map_str, Bool.false_eq_true, if_false, Option.bind_eq_bind, Option.bind_some]

theorem parse?_compact (f : Finding) : parse? f.toJson.compact = some f := by
  rw [parse?, Json.parseAs?_compact (f.fits_toJson_shape _), Option.bind_some, ofJson?_toJson]

end LintHub.Finding
