import LintHub.Proofs.Report.Merging
import LintHub.Proofs.Report.Soundness

/-!
# The group under which findings are shown

A check shows the findings of a tool under the tool's group. The group counts last in the order of reports, and it is the
same for all findings of a tool, so merging does not see it.

* `Report.group_of_mem_read` : what is read names no group.
* `mergeFindings_map` : a change that keeps the order of findings may be made before or after merging.
* `Report.ungrouped_mergeFindings` : without the group, the merged findings are those that are read, merged.
-/

namespace LintHub

open Std (ReflCmp ReflOrd)

/-- The finding without the group under which it is shown. -/
def Finding.ungrouped (f : Finding) : Finding := { f with group := none }

/-! ## Readers -/

section Readers

variable {root : Path} {tool : Tool} {f : Finding} {s : List Char}

theorem Columns.group_of_mem_step (pending : Pending) (line : ColumnLine) :
    ∀ f ∈ (step root tool pending line).2, f.group = none := by
  intro f hf
  cases line with
  | entry path line column token message =>
    obtain rfl := Option.some.inj hf
    unfold entryFinding
    dsimp only
    split
    · rfl
    · rfl
  | header rule message => cases hf
  | location path line column rest =>
    cases pending with
    | none => cases hf
    | some header =>
      obtain rfl := Option.some.inj hf
      rfl
  | other => cases hf

theorem Columns.group_of_mem_findings (hf : f ∈ findings root tool s) : f.group = none :=
  forall_mem_of_step (fun _ => rfl) (fun _ _ _ => rfl) group_of_mem_step none _ f hf

theorem Transcript.group_of_mem_step (block : Block) (line : HookLine) :
    ∀ f ∈ (step root tool block line).2, f.group = none := by
  intro f hf
  cases line with
  | separator | hook | metadata | status | text => cases hf
  | fixing | located | placed | filed =>
    obtain rfl := Option.some.inj hf
    rfl

theorem Transcript.group_of_mem_findings (hf : f ∈ findings root tool s) : f.group = none :=
  forall_mem_of_step (fun _ => rfl) (fun _ _ _ => rfl) group_of_mem_step .start _ f hf

theorem Issues.group_of_mem_finding? {issue : Json} (hf : f ∈ finding? root tool issue) : f.group = none := by
  unfold finding? at hf
  dsimp only at hf
  split at hf
  · cases hf
  · obtain rfl := Option.some.inj hf
    split
    · split
      · rfl
      · rfl
    · rfl

theorem Issues.group_of_mem_findings (hf : f ∈ findings root tool s) : f.group = none := by
  rcases mem_findings hf with ⟨issue, -, hfound⟩ | hcolumns
  · exact group_of_mem_finding? hfound
  · exact Columns.group_of_mem_findings hcolumns

theorem Report.group_of_mem_read {output : String} {dialect : Option Dialect}
    (hf : f ∈ read output root tool dialect) : f.group = none := by
  obtain ⟨d, -, hf⟩ := mem_read hf
  generalize cleanChars output.toList = text at hf
  cases d with
  | issues => exact Issues.group_of_mem_findings hf
  | columns => exact Columns.group_of_mem_findings hf
  | transcript => exact Transcript.group_of_mem_findings hf

end Readers

/-! ## Merging -/

section Merging

variable {φ : Finding → Finding} {fs : List Finding}

theorem dedupAdjacent_map (h : ∀ f ∈ fs, ∀ g ∈ fs, (φ f).same (φ g) = f.same g) :
    dedupAdjacent (fs.map φ) = (dedupAdjacent fs).map φ := by
  fun_induction dedupAdjacent fs with
  | case1 => rw [List.map_nil, dedupAdjacent]
  | case2 f => rw [List.map_singleton, dedupAdjacent]
  | case3 f g rest hsame ih =>
    have hfg : (φ f).same (φ g) = true := by rw [h f (by simp) g (by simp), hsame]
    have hrest : ∀ k ∈ f :: rest, k ∈ f :: g :: rest := fun k hk => by
      rcases List.mem_cons.1 hk with rfl | hk
      · exact List.mem_cons_self
      · exact List.mem_cons_of_mem f (List.mem_cons_of_mem g hk)
    rw [List.map_cons, List.map_cons, dedupAdjacent, if_pos hfg, ← List.map_cons,
      ih fun k hk l hl => h k (hrest k hk) l (hrest l hl)]
  | case4 f g rest hsame ih =>
    have hfg : ¬ (φ f).same (φ g) = true := by rw [h f (by simp) g (by simp)]; exact hsame
    rw [List.map_cons, List.map_cons, dedupAdjacent, if_neg hfg, ← List.map_cons,
      ih fun k hk l hl => h k (List.mem_cons_of_mem f hk) l (List.mem_cons_of_mem f hl), List.map_cons]

/-- A change that keeps the order of findings may be made before or after merging. -/
theorem mergeFindings_map (h : ∀ f ∈ fs, ∀ g ∈ fs, (φ f).compare (φ g) = f.compare g) :
    mergeFindings [fs.map φ] = (mergeFindings [fs]).map φ := by
  have hsame : ∀ f ∈ fs.mergeSort Finding.le, ∀ g ∈ fs.mergeSort Finding.le, (φ f).same (φ g) = f.same g := by
    intro f hf g hg
    rw [Bool.eq_iff_iff, same_iff, same_iff, h f (List.mem_mergeSort.1 hf) g (List.mem_mergeSort.1 hg)]
  have hle : ∀ f ∈ fs, ∀ g ∈ fs, f.le g = (φ f).le (φ g) := by
    intro f hf g hg
    rw [Finding.le, Finding.le, h f hf g hg]
  rw [mergeFindings, mergeFindings, List.flatten_singleton, List.flatten_singleton, ← List.map_mergeSort hle,
    dedupAdjacent_map hsame]

/-- Findings that are shown under one group have the order that they have without it. -/
theorem Finding.compare_inGroup {f g : Finding} (h : f.group = g.group) (group : Option String) :
    { f with group }.compare { g with group } = f.compare g := by
  have hsame (o : Option String) : Finding.orderOption o o = .eq := by
    rw [Finding.orderOption_eq]
    exact ReflOrd.compare_self
  simp only [Finding.compare, h, hsame]

end Merging

/-- The group under which findings are shown does not change how they are merged. -/
theorem Report.ungrouped_mergeFindings (output : String) (root : Path) (tool : Tool) (dialect : Option Dialect)
    (group : String) :
    (mergeFindings [readGrouped output root tool dialect (some group)]).map Finding.ungrouped =
      mergeFindings [read output root tool dialect] := by
  have horder : ∀ f ∈ read output root tool dialect, ∀ g ∈ read output root tool dialect,
      { f with group := some group }.compare { g with group := some group } = f.compare g := by
    intro f hf g hg
    exact Finding.compare_inGroup ((group_of_mem_read hf).trans (group_of_mem_read hg).symm) _
  have hback : ∀ f ∈ mergeFindings [read output root tool dialect],
      Finding.ungrouped { f with group := some group } = f := by
    intro f hf
    have hmem : f ∈ read output root tool dialect := by
      have hsorted := (dedupAdjacent_sublist _).subset hf
      rwa [List.flatten_singleton, List.mem_mergeSort] at hsorted
    have hnone : f.group = none := group_of_mem_read hmem
    rw [Finding.ungrouped]
    cases f
    cases hnone
    rfl
  rw [readGrouped, mergeFindings_map horder, List.map_map]
  exact (List.map_congr_left hback).trans (List.map_id' _)

end LintHub
