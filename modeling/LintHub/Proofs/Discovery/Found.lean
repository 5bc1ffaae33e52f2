import LintHub.Proofs.Discovery
import LintHub.Proofs.Disk.Entering
import LintHub.Proofs.Path.Order

/-!
# Which files are found

* `FileFilter.increasing_inOrder` : paths in order increase.
* `FileFilter.mem_inOrder_iff` : paths of places are all among the paths in order.
* `FileFilter.exists_patterns` : patterns without faults are read, and a path is taken if one of them takes it.
* `FileFilter.discover_finds_each_once` : which files are found besides those that are named.
-/

namespace LintHub.FileFilter

open Std (TransCmp OrientedCmp)

variable {f : FileFilter} {d : Disk} {base p q : Path} {ps : List Path} {included excluded names : List String}

/-! ## Order -/

theorem precedes_iff : precedes p q = true ↔ (p.compare q).isLE = true := by
  rw [precedes, bne_iff_ne, Ordering.isLE_iff_ne_gt]

theorem increasing_dropRepeats (h : ps.Pairwise fun p q => precedes p q = true) :
    (dropRepeats ps).Pairwise fun p q => p.compare q = .lt := by
  fun_induction dropRepeats ps with
  | case1 => exact .nil
  | case2 p => exact List.pairwise_singleton _ p
  | case3 p q rest _ ih =>
    apply ih
    exact h.sublist ((List.sublist_cons_self q rest).cons_cons p)
  | case4 p q rest hsame ih =>
    obtain ⟨hp, hrest⟩ := List.pairwise_cons.1 h
    have hpq : p.compare q = .lt := by
      have hle := precedes_iff.1 (hp q (by simp))
      have hne := mt Path.compare_eq_eq.1 hsame
      cases hc : p.compare q with
      | lt => rfl
      | eq => exact absurd hc hne
      | gt => simp [hc] at hle
    apply List.pairwise_cons.2
    refine ⟨?_, ih hrest⟩
    intro r hr
    rcases List.mem_cons.1 ((dropRepeats_sublist _).subset hr) with rfl | hr
    · exact hpq
    · exact TransCmp.lt_of_lt_of_isLE hpq (precedes_iff.1 ((List.pairwise_cons.1 hrest).1 r hr))

theorem increasing_inOrder (ps : List Path) : (inOrder ps).Pairwise fun p q => p.compare q = .lt := by
  apply increasing_dropRepeats
  apply List.pairwise_mergeSort
  · intro p q r hpq hqr
    rw [precedes_iff] at hpq hqr ⊢
    exact TransCmp.isLE_trans hpq hqr
  · intro p q
    have hswap : q.compare p = (p.compare q).swap := OrientedCmp.eq_swap
    rw [Bool.or_eq_true, precedes_iff, precedes_iff, hswap]
    cases p.compare q <;> simp

/-- A place has one spelling, so no path of a place is dropped for another spelling of it. -/
theorem mem_inOrder_iff (h : ∀ q ∈ ps, Disk.IsPlacePath q) : p ∈ inOrder ps ↔ p ∈ ps := by
  constructor
  · exact mem_of_mem_inOrder
  · intro hp
    obtain ⟨q, hq, hsame⟩ := exists_same_of_mem hp
    rwa [← (h q (mem_of_mem_inOrder hq)).eq_of_same (h p hp) hsame]

/-! ## Patterns -/

/-- The text is a pattern. -/
def IsPattern (g : String) : Prop := ∃ tokens, Glob.parse g = .ok tokens

/-- The text is a pattern that takes the path. -/
def Takes (g : String) (p : Path) : Prop := ∃ tokens, Glob.parse g = .ok tokens ∧ Glob.accepts tokens p.text = true

theorem pattern_of_parse {kind g : String} {tokens : List Glob.Token} (h : Glob.parse g = .ok tokens) :
    pattern kind g = .ok tokens := by
  rw [pattern, h]

theorem exists_patterns (kind : String) {gs : List String} (h : ∀ g ∈ gs, IsPattern g) :
    ∃ patterns, gs.mapM (pattern kind) = .ok patterns ∧ (patterns = [] ↔ gs = []) ∧
      ∀ p : Path, Glob.acceptsAny patterns p.text = true ↔ ∃ g ∈ gs, Takes g p := by
  induction gs with
  | nil => exact ⟨[], rfl, by simp, by simp [Glob.acceptsAny]⟩
  | cons g gs ih =>
    obtain ⟨tokens, htokens⟩ := h g (by simp)
    obtain ⟨patterns, hread, -, htake⟩ := ih fun g hg => h g (by simp [hg])
    refine ⟨tokens :: patterns, ?_, by simp, ?_⟩
    · rw [List.mapM_cons, pattern_of_parse htokens, hread]
      rfl
    · intro p
      have hfirst : Glob.accepts tokens p.text = true ↔ Takes g p := by
        constructor
        · intro haccepts
          exact ⟨tokens, htokens, haccepts⟩
        · rintro ⟨tokens', htokens', haccepts⟩
          rw [htokens] at htokens'
          rwa [Except.ok.inj htokens']
      rw [Glob.acceptsAny, List.any_cons, Bool.or_eq_true, hfirst, ← Glob.acceptsAny, htake]
      simp

/-- A filter of patterns leaves out what one of `excluded` takes, and what none of `included` takes if there are any. -/
theorem exists_of (hincluded : ∀ g ∈ included, IsPattern g) (hexcluded : ∀ g ∈ excluded, IsPattern g) :
    ∃ f, FileFilter.of included excluded = .ok f ∧
      ∀ p, f.ignores p = false ↔ (∀ g ∈ excluded, ¬ Takes g p) ∧ (included = [] ∨ ∃ g ∈ included, Takes g p) := by
  obtain ⟨ins, hins, hnone, hin⟩ := exists_patterns "glob pattern" hincluded
  obtain ⟨outs, houts, -, hout⟩ := exists_patterns "glob pattern" hexcluded
  refine ⟨⟨ins, outs⟩, ?_, ?_⟩
  · rw [FileFilter.of, hins, houts]
    rfl
  · intro p
    have hexcludes : Glob.acceptsAny outs p.text = false ↔ ∀ g ∈ excluded, ¬ Takes g p := by
      rw [← Bool.not_eq_true, hout, not_exists]
      simp only [not_and]
    simp only [ignores, excludes, Bool.or_eq_false_iff, hexcludes, Bool.and_eq_false_iff, Bool.not_eq_false',
      List.isEmpty_iff, hnone, hin]

theorem exists_patternsAmong (h : ∀ name ∈ names, namedFile? d base name = none → IsPattern name) :
    ∃ patterns, patternsAmong d base names = .ok patterns ∧
      ∀ p : Path, Glob.acceptsAny patterns p.text = true ↔
        ∃ name ∈ names, namedFile? d base name = none ∧ Takes name p := by
  have hpatterns : ∀ g ∈ names.filter (fun name => (namedFile? d base name).isNone), IsPattern g := by
    intro g hg
    obtain ⟨hmem, hnone⟩ := List.mem_filter.1 hg
    exact h g hmem (Option.isNone_iff_eq_none.1 hnone)
  obtain ⟨patterns, hread, -, htake⟩ := exists_patterns "pattern" hpatterns
  refine ⟨patterns, hread, ?_⟩
  intro p
  rw [htake]
  simp [and_assoc]

/-! ## Files under the base -/

theorem mem_matching_iff {patterns : List (List Glob.Token)} :
    p ∈ f.matching d base patterns ↔ p ∈ filesUnder d base ∧
      Glob.acceptsAny patterns (Path.relativeTo base p).text = true ∧ f.ignores (Path.relativeTo base p) = false := by
  rw [matching]
  split
  · next hnone =>
    rw [List.isEmpty_iff] at hnone
    simp [hnone, Glob.acceptsAny]
  · simp

theorem mem_filesUnder_iff (hd : d.WellNamed) (hbase : d.canonical base = .ok base) (hdir : d.isDir base = true) :
    p ∈ filesUnder d base ↔ d.Reaches (fun name => !skippedDirs.contains name) base p := by
  rw [← Disk.mem_tree_iff hd hbase hdir, filesUnder, List.mem_map]
  constructor
  · rintro ⟨⟨q, n⟩, hmem, rfl⟩
    obtain ⟨hmem, hfile⟩ := List.mem_filter.1 hmem
    exact ⟨n, hfile, hmem⟩
  · rintro ⟨n, hfile, hmem⟩
    exact ⟨(p, n), List.mem_filter.2 ⟨hmem, hfile⟩, rfl⟩

/-- With patterns that can be read, files are found. Their paths increase, so that each is found once. Besides the files
that are named, they are those that are reached from the base through directories that are not skipped, are taken by a
pattern, and are not ignored. -/
theorem discover_finds_each_once (hd : d.WellNamed) (hbase : d.canonical base = .ok base)
    (hdir : d.isDir base = true) (hincluded : ∀ g ∈ included, IsPattern g) (hexcluded : ∀ g ∈ excluded, IsPattern g)
    (hnames : ∀ name ∈ names, namedFile? d base name = none → IsPattern name) :
    ∃ f paths, FileFilter.of included excluded = .ok f ∧ f.discover d base names = .ok paths ∧
      (paths.Pairwise fun p q => p.compare q = .lt) ∧
      ∀ p, (∀ name ∈ names, ∀ q, namedFile? d base name = some q → d.canonical q ≠ .ok p) →
        (p ∈ paths ↔ d.Reaches (fun name => !skippedDirs.contains name) base p ∧
          (∃ name ∈ names, namedFile? d base name = none ∧ Takes name (Path.relativeTo base p)) ∧
          (∀ g ∈ excluded, ¬ Takes g (Path.relativeTo base p)) ∧
          (included = [] ∨ ∃ g ∈ included, Takes g (Path.relativeTo base p))) := by
  obtain ⟨f, hf, hignores⟩ := exists_of hincluded hexcluded
  obtain ⟨patterns, hpatterns, htake⟩ := exists_patternsAmong hnames
  have hdiscover : f.discover d base names = .ok (inOrder (f.named d base names ++ f.matching d base patterns)) := by
    rw [discover, hpatterns]
    rfl
  refine ⟨f, _, hf, hdiscover, increasing_inOrder _, ?_⟩
  intro p hp
  have hnamed : p ∉ f.named d base names := by
    intro hmem
    obtain ⟨name, hname, q, hq, -, hcanonical⟩ := mem_named.1 hmem
    exact hp name hname q hq hcanonical
  rw [mem_inOrder_iff fun q hq => isPlacePath_of_mem hd hbase hq, List.mem_append, or_iff_right hnamed,
    mem_matching_iff, mem_filesUnder_iff hd hbase hdir, htake, hignores]

/-- A file in the base, and one in a directory below it. -/
def nestedDisk : Disk :=
  ⟨[(["w"], .dir), (["w", "x"], .file ⟨#[]⟩ false), (["w", "d"], .dir), (["w", "d", "y"], .file ⟨#[]⟩ false)], []⟩

/-- One file is named and taken by the pattern too, the other one is only taken by it. -/
theorem discover_finds_each_once_nested :
    nestedDisk.WellNamed ∧ nestedDisk.canonical ⟨"/w"⟩ = .ok ⟨"/w"⟩ ∧ nestedDisk.isDir ⟨"/w"⟩ = true ∧
    IsPattern "*" ∧
    ∃ f paths, FileFilter.of ["*"] [] = .ok f ∧ f.discover nestedDisk ⟨"/w"⟩ ["x", "*"] = .ok paths ∧
      (paths.Pairwise fun p q => p.compare q = .lt) ∧ ⟨"/w/d/y"⟩ ∈ paths := by
  have hd : nestedDisk.WellNamed := by
    have hproper : ∀ n ∈ ["w", "x", "d", "y"], (Path.Component.name n).Proper := by
      simp [Path.Component.Proper, Path.isIdle]
    have hnames : ∀ entry ∈ nestedDisk.nodes, ∀ n ∈ entry.1, n ∈ ["w", "x", "d", "y"] := by simp [nestedDisk]
    exact fun entry hentry n hn => hproper n (hnames entry hentry n hn)
  have hw : Disk.IsPlain ⟨"/w"⟩ ["w"] := by decide
  have hwx : Disk.IsPlain ⟨"/w/x"⟩ ["w", "x"] := by decide
  have hwstar : Disk.IsPlain ⟨"/w/*"⟩ ["w", "*"] := by decide
  have hstat : nestedDisk.stat true ⟨"/w"⟩ = .ok (["w"], .dir) := Disk.stat_of_follow? hw rfl
  have hbase : nestedDisk.canonical ⟨"/w"⟩ = .ok ⟨"/w"⟩ := by
    rw [Disk.canonical, hstat]
    rfl
  have hdir : nestedDisk.isDir ⟨"/w"⟩ = true := by
    rw [Disk.isDir, hstat]
    rfl
  have hstar : Glob.parse "*" = .ok [.star] := by
    have hlist : "*".toList = ['*'] := rfl
    rw [Glob.parse, hlist, Glob.parseFrom, Glob.parseFrom]
    · rfl
    all_goals simp
  have hx : namedFile? nestedDisk ⟨"/w"⟩ "x" = some ⟨"/w/x"⟩ := by
    have hchild : Path.child ⟨"/w"⟩ "x" = ⟨"/w/x"⟩ := by decide
    rw [namedFile?, hchild, Disk.isPlainFile, Disk.stat, Disk.find_of_follow? hwx false rfl]
    rfl
  have hnone : namedFile? nestedDisk ⟨"/w"⟩ "*" = none := by
    have hchild : Path.child ⟨"/w"⟩ "*" = ⟨"/w/*"⟩ := by decide
    rw [namedFile?, hchild, Disk.isPlainFile, Disk.stat, Disk.find_of_follow? hwstar false rfl]
    rfl
  have hcanonical : nestedDisk.canonical ⟨"/w/x"⟩ = .ok ⟨"/w/x"⟩ := by
    rw [Disk.canonical, Disk.stat_of_follow? hwx rfl]
    rfl
  have hpattern : IsPattern "*" := ⟨_, hstar⟩
  have hincluded : ∀ g ∈ ["*"], IsPattern g := by simpa using hpattern
  have hexcluded : ∀ g ∈ ([] : List String), IsPattern g := by simp
  have hnames : ∀ name ∈ ["x", "*"], namedFile? nestedDisk ⟨"/w"⟩ name = none → IsPattern name := by
    simp [hx, hpattern]
  obtain ⟨f, paths, hf, hpaths, hincreasing, hfound⟩ :=
    discover_finds_each_once hd hbase hdir hincluded hexcluded hnames
  refine ⟨hd, hbase, hdir, hpattern, f, paths, hf, hpaths, hincreasing, ?_⟩
  have hother : ∀ name ∈ ["x", "*"], ∀ q, namedFile? nestedDisk ⟨"/w"⟩ name = some q →
      nestedDisk.canonical q ≠ .ok ⟨"/w/d/y"⟩ := by
    simp [hx, hnone, hcanonical]
  have hreaches : nestedDisk.Reaches (fun name => !skippedDirs.contains name) ⟨"/w"⟩ ⟨"/w/d/y"⟩ :=
    ⟨["w"], ["w", "d"], "y", .file ⟨#[]⟩ false, hstat, .down rfl (by decide) (.refl _), rfl, rfl, rfl⟩
  have htakes : Takes "*" (Path.relativeTo ⟨"/w"⟩ ⟨"/w/d/y"⟩) := ⟨_, hstar, by decide +kernel⟩
  apply (hfound _ hother).2
  exact ⟨hreaches, ⟨"*", by simp, hnone, htakes⟩, by simp, .inr ⟨"*", by simp, htakes⟩⟩

end LintHub.FileFilter
