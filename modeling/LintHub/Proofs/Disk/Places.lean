import LintHub.Proofs.Disk.Names
import LintHub.Proofs.Path.Normal
import Mathlib.Data.List.Basic

/-!
# Places on the disk

* `Disk.IsPlace` : a location whose names can be spelled in a path. The path of one has one spelling only.
* `Disk.isPlace_of_stat` : every way ends at a place, through links and steps up.
* `Disk.isPlacePath_of_mem_tree` : so does every walk over a disk whose names can be spelled.
-/

namespace LintHub

open LintHub.Path (Component)

/-! ## Places -/

namespace Disk

/-- All names can be spelled in a path. -/
def IsPlace (loc : Location) : Prop := ∀ n ∈ loc, (Component.name n).Proper

/-- The names on the disk can be spelled in paths. -/
def WellNamed (d : Disk) : Prop := ∀ entry ∈ d.nodes, IsPlace entry.1

variable {d : Disk} {loc : Location} {p : Path}

theorem IsPlace.append_singleton {n : String} (h : IsPlace loc) (hn : (Component.name n).Proper) :
    IsPlace (loc ++ [n]) := by
  intro m hm
  rcases List.mem_append.1 hm with hm | hm
  · exact h m hm
  · rw [List.mem_singleton.1 hm]
    exact hn

theorem IsPlace.dropLast (h : IsPlace loc) : IsPlace loc.dropLast := fun n hn => h n (List.dropLast_subset loc hn)

theorem proper_of_isPlace (h : IsPlace loc) : ∀ c ∈ loc.map Component.name, c.Proper := List.forall_mem_map.2 h

theorem pathOf_eq (h : IsPlace loc) : pathOf loc = Path.ofComponents (.root :: loc.map .name) := by
  have htext : (pathOf loc).text = (Path.ofComponents (.root :: loc.map .name)).text := by
    apply String.toList_inj.1
    rw [Path.toList_text_ofComponents_root (proper_of_isPlace h), List.map_map]
    simp only [pathOf, String.toList_append, String.toList_intercalate]
    rfl
  exact congrArg Path.mk htext

theorem components_pathOf (h : IsPlace loc) : (pathOf loc).components = .root :: loc.map .name := by
  rw [pathOf_eq h, Path.components_ofComponents_root (proper_of_isPlace h)]

/-- The path that stands for a place. -/
def IsPlacePath (p : Path) : Prop := ∃ loc, IsPlace loc ∧ p = pathOf loc

/-- Paths of places that are the same are equal. -/
theorem IsPlacePath.eq_of_same {q : Path} (hp : IsPlacePath p) (hq : IsPlacePath q) (h : p.same q = true) : p = q := by
  obtain ⟨loc, hloc, rfl⟩ := hp
  obtain ⟨loc', hloc', rfl⟩ := hq
  rw [Path.same, beq_iff_eq, components_pathOf hloc, components_pathOf hloc'] at h
  rw [pathOf_eq hloc, pathOf_eq hloc', h]

theorem child_pathOf {n : String} (h : IsPlace loc) (hn : (Component.name n).Proper) :
    (pathOf loc).child n = pathOf (loc ++ [n]) := by
  have hrelative : (Path.mk n).isAbsolute = false := by
    rw [Path.isAbsolute, beq_eq_false_iff_ne]
    exact fun hhead => hn.1 (List.mem_of_head? hhead)
  rw [Path.child, Path.join, hrelative, pathOf_eq h, pathOf_eq (h.append_singleton hn)]
  simp only [Bool.false_eq_true, if_false, Path.ofComponents, List.map_append, List.map_cons, List.map_nil,
    ← List.cons_append, List.foldl_append, List.foldl_cons, List.foldl_nil, reduceCtorEq, String.toList_ofList]
  rfl

/-! ## Ways -/

theorem slash_notMem_of_mem_segmentsOf {text segment : String} (h : segment ∈ segmentsOf text) :
    '/' ∉ segment.toList := by
  obtain ⟨piece, hpiece, rfl⟩ := List.mem_map.1 h
  rw [String.toList_ofList]
  exact sep_notMem_of_mem_pieces hpiece

theorem proper_of_segment {segment : String} (hslash : '/' ∉ segment.toList) (hidle : ¬ isIdle segment = true)
    (hup : segment ≠ "..") : (Component.name segment).Proper := by
  refine ⟨hslash, ?_, ?_⟩
  · rw [isIdle, Bool.or_eq_true, beq_iff_eq, beq_iff_eq, not_or] at hidle
    rw [Path.isIdle, Bool.or_eq_false_iff, beq_eq_false_iff_ne, List.isEmpty_eq_false_iff]
    exact ⟨mt String.toList_eq_nil_iff.1 hidle.1, fun hdot => hidle.2 (String.toList_inj.1 hdot)⟩
  · exact fun hdots => hup (String.toList_inj.1 hdots)

/-- A way from a place ends at one, whatever links are on it. -/
theorem isPlace_of_walk {follow : Bool} {links : Nat} {here : Location} {todo : List String} {found : Option Node}
    (hhere : IsPlace here) (htodo : ∀ segment ∈ todo, '/' ∉ segment.toList)
    (h : d.walk follow links here todo = .ok (loc, found)) : IsPlace loc := by
  fun_induction walk d follow links here todo with
  | case1 links here =>
    obtain ⟨rfl, rfl⟩ := Prod.mk.inj (Except.ok.inj h)
    exact hhere
  | case2 links here segment rest hidle ih => exact ih hhere (fun s hs => htodo s (List.mem_cons_of_mem _ hs)) h
  | case3 links here rest hidle ih =>
    exact ih hhere.dropLast (fun s hs => htodo s (List.mem_cons_of_mem _ hs)) h
  | case4 links here segment rest hidle hup hlong => cases h
  | case5 links here segment rest hidle hup hlong l hnone hlast =>
    obtain ⟨rfl, rfl⟩ := Prod.mk.inj (Except.ok.inj h)
    exact hhere.append_singleton (proper_of_segment (htodo segment (by simp)) hidle hup)
  | case6 links here segment rest hidle hup hlong l hnone hlast => cases h
  | case7 links here segment rest hidle hup hlong l hdir ih =>
    exact ih (hhere.append_singleton (proper_of_segment (htodo segment (by simp)) hidle hup))
      (fun s hs => htodo s (List.mem_cons_of_mem _ hs)) h
  | case8 links here segment rest hidle hup hlong l target hlink hlast =>
    obtain ⟨rfl, rfl⟩ := Prod.mk.inj (Except.ok.inj h)
    exact hhere.append_singleton (proper_of_segment (htodo segment (by simp)) hidle hup)
  | case9 here segment rest hidle hup hlong l target hlink hlast => cases h
  | case10 here segment rest hidle hup hlong l hlast more hlink => cases h
  | case11 here segment rest hidle hup hlong l target hlink hlast more htarget ih =>
    refine ih ?_ ?_ h
    · split
      · intro n hn
        cases hn
      · exact hhere
    · intro s hs
      rcases List.mem_append.1 hs with hs | hs
      · exact slash_notMem_of_mem_segmentsOf hs
      · exact htodo s (List.mem_cons_of_mem _ hs)
  | case12 links here segment rest hidle hup hlong l n hdir hlink hnode hlast =>
    obtain ⟨rfl, rfl⟩ := Prod.mk.inj (Except.ok.inj h)
    exact hhere.append_singleton (proper_of_segment (htodo segment (by simp)) hidle hup)
  | case13 links here segment rest hidle hup hlong l n hdir hlink hnode hlast => cases h

theorem stat_eq_ok_iff {follow : Bool} {n : Node} :
    d.stat follow p = .ok (loc, n) ↔ d.find follow p = .ok (loc, some n) := by
  rw [stat]
  split <;> simp_all

theorem isPlace_of_stat {follow : Bool} {n : Node} (hp : p.isAbsolute = true)
    (h : d.stat follow p = .ok (loc, n)) : IsPlace loc := by
  rw [stat_eq_ok_iff, find] at h
  split at h
  · cases h
  · split at h
    · cases h
    · exact isPlace_of_walk (fun n hn => by cases hn) (fun s hs => slash_notMem_of_mem_segmentsOf hs) h

/-- Where no link ends a way, it goes the same whether its last link is followed or not. -/
theorem walk_true_of_walk {follow : Bool} {links : Nat} {here : Location} {todo : List String} {n : Node}
    (h : d.walk follow links here todo = .ok (loc, some n)) (hn : ∀ target, n ≠ .link target) :
    d.walk true links here todo = .ok (loc, some n) := by
  fun_induction walk d follow links here todo with
  | case1 links here =>
    rw [walk]
    exact h
  | case2 links here segment rest hidle ih =>
    rw [walk, if_pos hidle]
    exact ih h
  | case3 links here rest hidle ih =>
    rw [walk, if_neg hidle, if_pos rfl]
    exact ih h
  | case4 links here segment rest hidle hup hlong => cases h
  | case5 links here segment rest hidle hup hlong l hnone hlast =>
    obtain ⟨-, heq⟩ := Prod.mk.inj (Except.ok.inj h)
    cases heq
  | case6 links here segment rest hidle hup hlong l hnone hlast => cases h
  | case7 links here segment rest hidle hup hlong l hdir ih =>
    rw [walk_dir hidle hup hlong hdir]
    exact ih h
  | case8 links here segment rest hidle hup hlong l target hlink hlast =>
    obtain ⟨-, heq⟩ := Prod.mk.inj (Except.ok.inj h)
    exact absurd (Option.some.inj heq).symm (hn target)
  | case9 here segment rest hidle hup hlong l target hlink hlast => cases h
  | case10 here segment rest hidle hup hlong l hlast more hlink => cases h
  | case11 here segment rest hidle hup hlong l target hlink hlast more htarget ih =>
    rw [walk_link hidle hup hlong hlink htarget (by simp)]
    exact ih h
  | case12 links here segment rest hidle hup hlong l m hdir hlink hnode hlast =>
    obtain ⟨rfl, heq⟩ := Prod.mk.inj (Except.ok.inj h)
    obtain rfl := Option.some.inj heq
    rw [List.isEmpty_iff.1 hlast]
    refine walk_end hidle hup hlong hnode ?_ ?_
    · exact fun heq => hdir (Option.some.inj heq)
    · exact fun _ target heq => hn target (Option.some.inj heq)
  | case13 links here segment rest hidle hup hlong l m hdir hlink hnode hlast => cases h

theorem stat_true_of_stat {follow : Bool} {n : Node} (h : d.stat follow p = .ok (loc, n))
    (hn : ∀ target, n ≠ .link target) : d.stat true p = .ok (loc, n) := by
  rw [stat_eq_ok_iff, find] at h ⊢
  split at h
  · cases h
  · next hempty =>
    split at h
    · cases h
    · next hnull =>
      rw [if_neg hempty, if_neg hnull]
      split at h
      · next habsolute =>
        rw [if_pos habsolute]
        exact walk_true_of_walk h hn
      · next hrelative =>
        rw [if_neg hrelative]
        split at h
        · exact walk_true_of_walk h hn
        · cases h

/-- A plain file has a canonical path. -/
theorem exists_canonical_of_isPlainFile (h : d.isPlainFile p = true) : ∃ c, d.canonical p = .ok c := by
  rw [isPlainFile] at h
  split at h
  · next loc n hstat =>
    have hlink : ∀ target, n ≠ .link target := by
      rintro target rfl
      cases h
    exact ⟨pathOf loc, by rw [canonical, stat_true_of_stat hstat hlink]; rfl⟩
  · cases h

/-! ## Walks -/

theorem isPlace_of_node? {n : Node} (hd : d.WellNamed) (h : d.node? loc = some n) : IsPlace loc := by
  rw [node?] at h
  split at h
  · next hnil =>
    rw [List.isEmpty_iff.1 hnil]
    intro m hm
    cases hm
  · obtain ⟨entry, hentry, -⟩ := Option.map_eq_some_iff.1 h
    have hloc : entry.1 = loc := by simpa using List.find?_some hentry
    rw [← hloc]
    exact hd entry (List.mem_of_find?_eq_some hentry)

theorem isPlacePath_of_mem_entriesUnder (hd : d.WellNamed) {enter : String → Bool} {depth : Nat} (hloc : IsPlace loc)
    {entry : Path × Node} (h : entry ∈ d.entriesUnder enter depth (pathOf loc) loc) : IsPlacePath entry.1 := by
  induction depth generalizing loc with
  | zero => cases h
  | succ depth ih =>
    obtain ⟨name, -, h⟩ := List.mem_flatMap.1 h
    split at h
    · next hnode =>
      have hplace := isPlace_of_node? hd hnode
      have hchild := child_pathOf hloc (hplace name (by simp))
      split at h
      · rcases List.mem_cons.1 h with rfl | h
        · exact ⟨_, hplace, hchild⟩
        · rw [hchild] at h
          exact ih hplace h
      · cases h
    · next hnode =>
      have hplace := isPlace_of_node? hd hnode
      rw [List.mem_singleton.1 h]
      exact ⟨_, hplace, child_pathOf hloc (hplace name (by simp))⟩
    · cases h

theorem canonical_eq_ok {q : Path} (h : d.canonical p = .ok q) :
    ∃ loc n, d.stat true p = .ok (loc, n) ∧ q = pathOf loc := by
  rw [canonical] at h
  cases hstat : d.stat true p with
  | error e =>
    rw [hstat] at h
    cases h
  | ok found =>
    rw [hstat] at h
    exact ⟨found.1, found.2, rfl, (Except.ok.inj h).symm⟩

theorem isAbsolute_pathOf (loc : Location) : (pathOf loc).isAbsolute = true := by
  rw [Path.isAbsolute_iff]
  exact ⟨("/".intercalate loc).toList, String.toList_append⟩

theorem isPlacePath_of_canonical {q : Path} (hp : p.isAbsolute = true) (h : d.canonical p = .ok q) :
    IsPlacePath q := by
  obtain ⟨loc, n, hstat, rfl⟩ := canonical_eq_ok h
  exact ⟨loc, isPlace_of_stat hp hstat, rfl⟩

/-- A walk from a canonical path passes through places. -/
theorem isPlacePath_of_mem_tree (hd : d.WellNamed) (hcanonical : d.canonical p = .ok p) {enter : String → Bool}
    {entry : Path × Node} (h : entry ∈ d.tree enter p) : IsPlacePath entry.1 := by
  obtain ⟨loc, n, hstat, rfl⟩ := canonical_eq_ok hcanonical
  have hplace := isPlace_of_stat (isAbsolute_pathOf loc) hstat
  unfold tree at h
  rw [hstat] at h
  split at h
  · next heq =>
    obtain ⟨rfl, rfl⟩ := Prod.mk.inj (Except.ok.inj heq)
    rcases List.mem_cons.1 h with rfl | h
    · exact ⟨loc, hplace, rfl⟩
    · exact isPlacePath_of_mem_entriesUnder hd hplace h
  · split at h
    · rw [List.mem_singleton.1 h]
      exact ⟨loc, hplace, rfl⟩
    · rw [List.mem_singleton.1 h]
      exact ⟨loc, hplace, rfl⟩
  · cases h

end Disk

end LintHub
