import LintHub.Proofs.Report.Merging

/-!
# Results by file

`groupByFile` puts each finding into the group of its file. Two spellings of a path name the same group.

* `Ordered` : the paths of groups increase strictly. `Ordered.insertGroup` : they still do with one more finding.
* `Filed` : every group has findings, all of its file. `Filed.insertGroup` : so it is with one more finding.
* `flatMap_insertGroup` : a finding of a file that no group's file comes after is put behind all others.
* `findingsIn_groupByFile` : the results list merged findings in their order.
* `groupByFile_partitions` : merged findings are cut into the results of their files.
-/

namespace LintHub

open Std (TransCmp OrientedCmp)

/-- The paths of groups increase strictly. -/
def Ordered (groups : List (Path × List Finding)) : Prop := groups.Pairwise fun g k => g.1.compare k.1 = .lt

/-- Every group has findings, and they are of its file. -/
def Filed (groups : List (Path × List Finding)) : Prop :=
  ∀ g ∈ groups, g.2 ≠ [] ∧ ∀ f ∈ g.2, f.file.same g.1 = true

variable {f : Finding} {fs : List Finding} {groups : List (Path × List Finding)}

/-! ## One finding -/

theorem path_of_mem_insertGroup {g : Path × List Finding} (hg : g ∈ insertGroup f groups) :
    g.1 = f.file ∨ ∃ k ∈ groups, g.1 = k.1 := by
  fun_induction insertGroup f groups with
  | case1 =>
    rw [List.mem_singleton.1 hg]
    exact .inl rfl
  | case2 path fs rest _ =>
    rcases List.mem_cons.1 hg with rfl | hg
    · exact .inl rfl
    · exact .inr ⟨g, hg, rfl⟩
  | case3 path fs rest _ =>
    rcases List.mem_cons.1 hg with rfl | hg
    · exact .inr ⟨(path, fs), List.mem_cons_self, rfl⟩
    · exact .inr ⟨g, List.mem_cons_of_mem _ hg, rfl⟩
  | case4 path fs rest _ ih =>
    rcases List.mem_cons.1 hg with rfl | hg
    · exact .inr ⟨(path, fs), List.mem_cons_self, rfl⟩
    · rcases ih hg with hfile | ⟨k, hk, hpath⟩
      · exact .inl hfile
      · exact .inr ⟨k, List.mem_cons_of_mem _ hk, hpath⟩

theorem Ordered.insertGroup (h : Ordered groups) (f : Finding) : Ordered (insertGroup f groups) := by
  fun_induction LintHub.insertGroup f groups with
  | case1 => exact List.pairwise_singleton _ _
  | case2 path fs rest hlt =>
    refine List.pairwise_cons.2 ⟨fun k hk => ?_, h⟩
    rcases List.mem_cons.1 hk with rfl | hk
    · exact hlt
    · exact TransCmp.lt_trans hlt ((List.pairwise_cons.1 h).1 k hk)
  | case3 path fs rest _ => exact List.pairwise_cons.2 (List.pairwise_cons.1 h)
  | case4 path fs rest hgt ih =>
    obtain ⟨hpath, hrest⟩ := List.pairwise_cons.1 h
    refine List.pairwise_cons.2 ⟨fun k hk => ?_, ih hrest⟩
    rcases path_of_mem_insertGroup hk with hfile | ⟨g, hg, hkg⟩
    · rw [hfile]
      exact OrientedCmp.lt_of_gt hgt
    · rw [hkg]
      exact hpath g hg

theorem Filed.insertGroup (h : Filed groups) (f : Finding) : Filed (insertGroup f groups) := by
  have hown : [f] ≠ [] ∧ ∀ k ∈ [f], k.file.same f.file = true := by
    refine ⟨List.cons_ne_nil _ _, fun k hk => ?_⟩
    rw [List.mem_singleton.1 hk]
    exact beq_self_eq_true _
  fun_induction LintHub.insertGroup f groups with
  | case1 => exact List.forall_mem_singleton.2 hown
  | case2 path fs rest _ => exact List.forall_mem_cons.2 ⟨hown, h⟩
  | case3 path fs rest heq =>
    obtain ⟨⟨-, hfs⟩, hrest⟩ := List.forall_mem_cons.1 h
    refine List.forall_mem_cons.2 ⟨⟨by simp, fun k hk => ?_⟩, hrest⟩
    rcases List.mem_append.1 hk with hk | hk
    · exact hfs k hk
    · rw [List.mem_singleton.1 hk]
      exact Path.compare_eq_eq.1 heq
  | case4 path fs rest _ ih =>
    obtain ⟨hgroup, hrest⟩ := List.forall_mem_cons.1 h
    exact List.forall_mem_cons.2 ⟨hgroup, ih hrest⟩

theorem flatMap_insertGroup (h : Ordered groups) (hlast : ∀ g ∈ groups, (g.1.compare f.file).isLE = true) :
    (insertGroup f groups).flatMap Prod.snd = groups.flatMap Prod.snd ++ [f] := by
  fun_induction insertGroup f groups with
  | case1 => rfl
  | case2 path fs rest hlt => exact absurd hlt (OrientedCmp.not_lt_of_isLE (hlast _ List.mem_cons_self))
  | case3 path fs rest heq =>
    -- A group behind the one of the file would be of a file that comes after it.
    cases rest with
    | nil => simp
    | cons k rest =>
      have hlt : f.file.compare k.1 = .lt :=
        TransCmp.lt_of_eq_of_lt heq ((List.pairwise_cons.1 h).1 k List.mem_cons_self)
      exact absurd hlt (OrientedCmp.not_lt_of_isLE (hlast k (by simp)))
  | case4 path fs rest _ ih =>
    rw [List.flatMap_cons, List.flatMap_cons, ih (List.pairwise_cons.1 h).2 fun g hg =>
      hlast g (List.mem_cons_of_mem _ hg), List.append_assoc]

/-! ## All findings -/

/-- Findings whose files come in order are put behind each other. -/
theorem flatMap_foldl_insertGroup (hfs : fs.Pairwise fun f g => (f.file.compare g.file).isLE = true)
    (h : Ordered groups) (hlast : ∀ g ∈ groups, ∀ f ∈ fs, (g.1.compare f.file).isLE = true) :
    (fs.foldl (fun groups f => insertGroup f groups) groups).flatMap Prod.snd = groups.flatMap Prod.snd ++ fs := by
  induction fs generalizing groups with
  | nil => rw [List.foldl_nil, List.append_nil]
  | cons f fs ih =>
    obtain ⟨hf, hfs⟩ := List.pairwise_cons.1 hfs
    have hgroups : ∀ g ∈ insertGroup f groups, ∀ k ∈ fs, (g.1.compare k.file).isLE = true := by
      intro g hg k hk
      rcases path_of_mem_insertGroup hg with hfile | ⟨g', hg', hpath⟩
      · rw [hfile]
        exact hf k hk
      · rw [hpath]
        exact hlast g' hg' k (List.mem_cons_of_mem _ hk)
    rw [List.foldl_cons, ih hfs (h.insertGroup f) hgroups,
      flatMap_insertGroup h fun g hg => hlast g hg f List.mem_cons_self, List.append_assoc, List.singleton_append]

/-- What one more finding preserves holds of all groups. -/
theorem foldl_insertGroup_induction {P : List (Path × List Finding) → Prop} (h : P groups)
    (hstep : ∀ groups f, P groups → P (insertGroup f groups)) (fs : List Finding) :
    P (fs.foldl (fun groups f => insertGroup f groups) groups) := by
  induction fs generalizing groups with
  | nil => exact h
  | cons f fs ih => exact ih (hstep groups f h)

theorem Increasing.files (h : Increasing fs) : fs.Pairwise fun f g => (f.file.compare g.file).isLE = true := by
  refine h.imp fun {f g} hfg => ?_
  have hle : (f.compare g).isLE = true := by
    rw [hfg]
    rfl
  exact Ordering.isLE_left_of_isLE_then hle

/-- Grouping loses no finding and puts none in another place. -/
theorem findingsIn_groupByFile (h : Increasing fs) : findingsIn (groupByFile fs) = fs := by
  have hempty : Ordered [] := .nil
  have hgroups := flatMap_foldl_insertGroup h.files hempty (by simp)
  rw [findingsIn, groupByFile, List.flatMap_map]
  exact hgroups

/-- Merged findings are cut into the results of their files. The paths of the results increase strictly, each result
has findings, all of its file, however its path is spelled, and one after another the results list what was merged. -/
theorem groupByFile_partitions (fs : List Finding) :
    ((groupByFile (mergeFindings [fs])).Pairwise fun r s => r.path.compare s.path = .lt) ∧
    (∀ r ∈ groupByFile (mergeFindings [fs]), r.findings ≠ [] ∧ ∀ f ∈ r.findings, f.file.same r.path = true) ∧
    findingsIn (groupByFile (mergeFindings [fs])) = mergeFindings [fs] := by
  have hordered : Ordered ((mergeFindings [fs]).foldl (fun groups f => insertGroup f groups) []) :=
    foldl_insertGroup_induction (P := Ordered) .nil (fun _ f h => h.insertGroup f) _
  have hfiled : Filed ((mergeFindings [fs]).foldl (fun groups f => insertGroup f groups) []) :=
    foldl_insertGroup_induction (P := Filed) (by simp [Filed]) (fun _ f h => h.insertGroup f) _
  refine ⟨List.pairwise_map.2 hordered, fun r hr => ?_, findingsIn_groupByFile (increasing_mergeFindings [fs])⟩
  obtain ⟨g, hg, rfl⟩ := List.mem_map.1 hr
  exact hfiled g hg

/-- A finding on some line of a file. -/
def saidOf (file : String) (line : UInt32) : Finding := (Finding.new ⟨file⟩ "r" "m" .yamllint).onLine line

/-- Two findings of a file that is spelled in three ways, one of them said twice, and one of a file that comes later in
the order of paths, though its text comes earlier. -/
theorem groupByFile_partitions_respelled :
    mergeFindings [[saidOf "/w/a/./b.yml" 2, saidOf "/w//a/b.yml" 2, saidOf "/w/a/b.yml" 7, saidOf "/w/a.d/b.yml" 1]] =
        [saidOf "/w/a/./b.yml" 2, saidOf "/w/a/b.yml" 7, saidOf "/w/a.d/b.yml" 1] ∧
      (groupByFile [saidOf "/w/a/./b.yml" 2, saidOf "/w/a/b.yml" 7, saidOf "/w/a.d/b.yml" 1]).map
        (fun r => (r.path.text, r.findings.map Finding.line)) = [("/w/a/./b.yml", [2, 7]), ("/w/a.d/b.yml", [1])] ∧
      ∀ r ∈ groupByFile [saidOf "/w/a/./b.yml" 2, saidOf "/w/a/b.yml" 7, saidOf "/w/a.d/b.yml" 1],
        r.findings ≠ [] ∧ ∀ f ∈ r.findings, f.file.same r.path = true := by
  have hmerged : mergeFindings
      [[saidOf "/w/a/./b.yml" 2, saidOf "/w//a/b.yml" 2, saidOf "/w/a/b.yml" 7, saidOf "/w/a.d/b.yml" 1]] =
        [saidOf "/w/a/./b.yml" 2, saidOf "/w/a/b.yml" 7, saidOf "/w/a.d/b.yml" 1] := by
    have hsame : (saidOf "/w/a/./b.yml" 2).same (saidOf "/w//a/b.yml" 2) = true := by decide +kernel
    have hlater : (saidOf "/w/a/./b.yml" 2).same (saidOf "/w/a/b.yml" 7) = false := by decide +kernel
    have hother : (saidOf "/w/a/b.yml" 7).same (saidOf "/w/a.d/b.yml" 1) = false := by decide +kernel
    rw [mergeFindings, List.flatten_singleton, List.mergeSort_of_pairwise (by decide +kernel)]
    simp only [dedupAdjacent, hsame, hlater, hother, Bool.false_eq_true, if_true, if_false]
  have hparts := groupByFile_partitions
    [saidOf "/w/a/./b.yml" 2, saidOf "/w//a/b.yml" 2, saidOf "/w/a/b.yml" 7, saidOf "/w/a.d/b.yml" 1]
  rw [hmerged] at hparts
  exact ⟨hmerged, by decide +kernel, hparts.2.1⟩

end LintHub
