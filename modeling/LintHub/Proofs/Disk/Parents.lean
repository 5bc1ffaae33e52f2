import LintHub.Proofs.Disk.Places
import LintHub.Proofs.Disk.Writing
import LintHub.Proofs.Path.Heads

/-!
# The directories on a way

* `Disk.IsOpen` : a directory all of whose parents are directories.
* `exists_walk_of_append` : a way is cut anywhere, at a directory that is there; `exists_walk_false` : and it leads to a
  place as well if a link at its end is not followed.
* `find_withSegments` : the ways of a path and of its parents have the same start.
* `isDir_parent?` and `makeDirs_of_isDir` : the directory of a file that is there is there, and making it changes nothing.
-/

namespace LintHub.Disk

variable {d : Disk} {loc here : Location} {follow : Bool} {links : Nat} {todo rest : List String}

/-- A directory, and all above it are directories. -/
def IsOpen (d : Disk) (loc : Location) : Prop := ∀ above, above <+: loc → d.node? above = some .dir

theorem isOpen_nil (d : Disk) : d.IsOpen [] := by
  intro above habove
  rw [List.prefix_nil.1 habove]
  rfl

theorem IsOpen.node? (h : d.IsOpen loc) : d.node? loc = some .dir := h loc List.prefix_rfl

theorem IsOpen.dropLast (h : d.IsOpen loc) : d.IsOpen loc.dropLast := by
  intro above habove
  exact h above (habove.trans (List.dropLast_prefix loc))

theorem IsOpen.append_singleton {name : String} (h : d.IsOpen loc) (hname : d.node? (loc ++ [name]) = some .dir) :
    d.IsOpen (loc ++ [name]) := by
  intro above habove
  rcases List.prefix_concat_iff.1 habove with rfl | habove
  · exact hname
  · exact h above habove

/-! ## Ways -/

/-- A way is cut anywhere. Where it goes on, there is a directory. -/
theorem exists_walk_of_append {found : Location × Option Node} (hhere : d.IsOpen here) (hrest : rest ≠ [])
    (h : d.walk follow links here todo = .ok found) :
    ∀ first, first ++ rest = todo → ∃ dir fewer, d.IsOpen dir ∧ d.walk true links here first = .ok (dir, some .dir) ∧
      d.walk follow fewer dir rest = .ok found := by
  have hstart {links : Nat} {here : Location} (hhere : d.IsOpen here)
      (h : d.walk follow links here rest = .ok found) :
      ∃ dir fewer, d.IsOpen dir ∧ d.walk true links here [] = .ok (dir, some .dir) ∧
        d.walk follow fewer dir rest = .ok found :=
    ⟨here, links, hhere, by rw [walk, hhere.node?], h⟩
  fun_induction walk d follow links here todo with
  | case1 links here =>
    intro first hfirst
    exact absurd (List.append_eq_nil_iff.1 hfirst).2 hrest
  | case2 links here segment more hidle ih =>
    intro first hfirst
    rcases List.append_eq_cons_iff.1 hfirst with ⟨rfl, rfl⟩ | ⟨first, rfl, hmore⟩
    · apply hstart hhere
      rw [walk, if_pos hidle, h]
    · rw [walk, if_pos hidle]
      exact ih hhere h first hmore.symm
  | case3 links here more hidle ih =>
    intro first hfirst
    rcases List.append_eq_cons_iff.1 hfirst with ⟨rfl, rfl⟩ | ⟨first, rfl, hmore⟩
    · apply hstart hhere
      rw [walk, if_neg hidle, if_pos rfl, h]
    · rw [walk, if_neg hidle, if_pos rfl]
      exact ih hhere.dropLast h first hmore.symm
  | case4 links here segment more hidle hup hlong => cases h
  | case5 links here segment more hidle hup hlong l hnone hlast =>
    intro first hfirst
    obtain rfl := List.isEmpty_iff.1 hlast
    rcases List.append_eq_cons_iff.1 hfirst with ⟨rfl, rfl⟩ | ⟨first, rfl, hmore⟩
    · exact hstart hhere ((walk_end hidle hup hlong hnone (by simp) (by simp)).trans h)
    · exact absurd (List.append_eq_nil_iff.1 hmore.symm).2 hrest
  | case6 links here segment more hidle hup hlong l hnone hlast => cases h
  | case7 links here segment more hidle hup hlong l hdir ih =>
    intro first hfirst
    rcases List.append_eq_cons_iff.1 hfirst with ⟨rfl, rfl⟩ | ⟨first, rfl, hmore⟩
    · exact hstart hhere ((walk_dir hidle hup hlong hdir).trans h)
    · rw [walk_dir hidle hup hlong hdir]
      exact ih (hhere.append_singleton hdir) h first hmore.symm
  | case8 links here segment more hidle hup hlong l target hlink hlast =>
    intro first hfirst
    obtain ⟨hempty, hfollow⟩ := Bool.and_eq_true_iff.1 hlast
    obtain rfl := List.isEmpty_iff.1 hempty
    rcases List.append_eq_cons_iff.1 hfirst with ⟨rfl, rfl⟩ | ⟨first, rfl, hmore⟩
    · exact hstart hhere ((walk_end hidle hup hlong hlink (by simp) (by simp_all)).trans h)
    · exact absurd (List.append_eq_nil_iff.1 hmore.symm).2 hrest
  | case9 here segment more hidle hup hlong l target hlink hlast => cases h
  | case10 here segment more hidle hup hlong l hlast fewer hlink => cases h
  | case11 here segment more hidle hup hlong l target hlink hlast fewer htarget ih =>
    intro first hfirst
    rcases List.append_eq_cons_iff.1 hfirst with ⟨rfl, rfl⟩ | ⟨first, rfl, hmore⟩
    · exact hstart hhere ((walk_link hidle hup hlong hlink htarget hlast).trans h)
    · rw [walk_link hidle hup hlong hlink htarget (by simp)]
      refine ih ?_ h (segmentsOf target ++ first) ?_
      · split
        · exact isOpen_nil d
        · exact hhere
      · rw [hmore, List.append_assoc]
  | case12 links here segment more hidle hup hlong l n hdir hlink hnode hlast =>
    intro first hfirst
    obtain rfl := List.isEmpty_iff.1 hlast
    rcases List.append_eq_cons_iff.1 hfirst with ⟨rfl, rfl⟩ | ⟨first, rfl, hmore⟩
    · refine hstart hhere ((walk_end hidle hup hlong hnode ?_ ?_).trans h)
      · exact fun heq => hdir (Option.some.inj heq)
      · exact fun _ target heq => hlink target (Option.some.inj heq)
    · exact absurd (List.append_eq_nil_iff.1 hmore.symm).2 hrest
  | case13 links here segment more hidle hup hlong l n hdir hlink hnode hlast => cases h

/-- A way to a place leads to one also if no link at its end is followed. -/
theorem exists_walk_false {n : Node} (h : d.walk follow links here todo = .ok (loc, some n)) :
    ∃ loc n, d.walk false links here todo = .ok (loc, some n) := by
  fun_induction walk d follow links here todo with
  | case1 links here => exact ⟨loc, n, by rw [walk, h]⟩
  | case2 links here segment more hidle ih =>
    rw [walk, if_pos hidle]
    exact ih h
  | case3 links here more hidle ih =>
    rw [walk, if_neg hidle, if_pos rfl]
    exact ih h
  | case4 links here segment more hidle hup hlong => cases h
  | case5 links here segment more hidle hup hlong l hnone hlast => simp at h
  | case6 links here segment more hidle hup hlong l hnone hlast => cases h
  | case7 links here segment more hidle hup hlong l hdir ih =>
    rw [walk_dir hidle hup hlong hdir]
    exact ih h
  | case8 links here segment more hidle hup hlong l target hlink hlast =>
    obtain rfl := List.isEmpty_iff.1 (Bool.and_eq_true_iff.1 hlast).1
    exact ⟨_, _, walk_end hidle hup hlong hlink (by simp) (by simp)⟩
  | case9 here segment more hidle hup hlong l target hlink hlast => cases h
  | case10 here segment more hidle hup hlong l hlast fewer hlink => cases h
  | case11 here segment more hidle hup hlong l target hlink hlast fewer htarget ih =>
    by_cases hmore : more = []
    · rw [hmore]
      exact ⟨_, _, walk_end hidle hup hlong hlink (by simp) (by simp)⟩
    · rw [walk_link hidle hup hlong hlink htarget (by simp [hmore])]
      exact ih h
  | case12 links here segment more hidle hup hlong l m hdir hlink hnode hlast =>
    obtain rfl := List.isEmpty_iff.1 hlast
    refine ⟨_, m, walk_end hidle hup hlong hnode ?_ (by simp)⟩
    exact fun heq => hdir (Option.some.inj heq)
  | case13 links here segment more hidle hup hlong l m hdir hlink hnode hlast => cases h

/-- The last segment on the way to what is no directory is a name. -/
theorem exists_name_of_walk {n : Node} (hhere : d.IsOpen here) (hn : n ≠ .dir)
    (h : d.walk follow links here todo = .ok (loc, some n)) :
    ∃ first name, todo = first ++ [name] ∧ isIdle name = false ∧ name ≠ ".." := by
  cases todo using List.reverseRecOn with
  | nil =>
    rw [walk, hhere.node?] at h
    obtain ⟨-, hdir⟩ := Prod.mk.inj (Except.ok.inj h)
    exact absurd (Option.some.inj hdir).symm hn
  | append_singleton first name =>
    refine ⟨first, name, rfl, ?_⟩
    obtain ⟨dir, fewer, hdir, -, hlast⟩ := exists_walk_of_append hhere (by simp) h first rfl
    -- Without a name at its end the way leads to a directory.
    have hopen {last : Location} (hlast : d.IsOpen last) (hwalk : d.walk follow fewer last [] = .ok (loc, some n)) :
        n = .dir := by
      rw [walk, hlast.node?] at hwalk
      obtain ⟨-, heq⟩ := Prod.mk.inj (Except.ok.inj hwalk)
      exact (Option.some.inj heq).symm
    constructor
    · by_contra hidle
      rw [walk, if_pos (by simpa using hidle)] at hlast
      exact hn (hopen hdir hlast)
    · rintro rfl
      rw [walk, if_neg (by decide), if_pos rfl] at hlast
      exact hn (hopen hdir.dropLast hlast)

/-! ## Paths -/

open LintHub.Path (ofHead IsHead)

variable {p : Path} {head : List Char} {segs : List (List Char)}

/-- Where the way of a path starts. -/
def startOf (d : Disk) (p : Path) : Location := if p.isAbsolute then [] else d.here

theorem isOpen_startOf (p : Path) (h : d.IsOpen d.here) : d.IsOpen (d.startOf p) := by
  rw [startOf]
  split
  · exact isOpen_nil d
  · exact h

/-- The head of a text leads nowhere, so that the way goes by the segments. -/
theorem walk_segmentsOf_ofHead (hhead : IsHead head) (hslash : ∀ s ∈ segs, '/' ∉ s) (hne : ofHead (head, segs) ≠ []) :
    d.walk follow links here (segmentsOf (String.ofList (ofHead (head, segs)))) =
      d.walk follow links here (segs.map String.ofList) := by
  rw [segmentsOf, String.toList_ofList]
  cases hhead with
  | root =>
    rw [Path.ofHead_root, show '/' :: Path.joinSegments segs = [] ++ '/' :: Path.joinSegments segs from rfl,
      pieces_append_sep _ (by simp), List.map_cons, walk, if_pos (by decide)]
    cases segs with
    | nil =>
      show d.walk follow links here [""] = _
      rw [walk, if_pos (by decide)]
      rfl
    | cons s segs => rw [Path.pieces_joinSegments (by simp) hslash]
  | here =>
    cases segs with
    | nil =>
      rw [show ofHead (['.'], []) = ['.'] from rfl, pieces_of_notMem (by decide), List.map_singleton, walk,
        if_pos (by decide)]
      rfl
    | cons s segs =>
      rw [Path.ofHead_here_cons, show '.' :: '/' :: Path.joinSegments (s :: segs) =
        ['.'] ++ '/' :: Path.joinSegments (s :: segs) from rfl, pieces_append_sep _ (by decide), List.map_cons, walk,
        if_pos (by decide), Path.pieces_joinSegments (by simp) hslash]
  | none =>
    rw [Path.ofHead_none] at hne ⊢
    rw [Path.pieces_joinSegments ?_ hslash]
    rintro rfl
    exact hne rfl

/-- The path of some of a path's segments leads from where the whole path starts. -/
theorem find_withSegments {found : Location × Option Node} (h : d.find follow p = .ok found)
    (hsegs : segs <+: p.segments) (hne : (p.withSegments segs).text ≠ "") (follow' : Bool) :
    d.find follow' (p.withSegments segs) = d.walk follow' 40 (d.startOf p) (segs.map String.ofList) := by
  have hwalk {here : Location} : d.walk follow' 40 here (segmentsOf (p.withSegments segs).text) =
      d.walk follow' 40 here (segs.map String.ofList) := by
    refine walk_segmentsOf_ofHead (Path.isHead_splitHead p.text.toList) ?_ ?_
    · intro s hs
      exact Path.slash_notMem_of_mem_splitHead (hsegs.subset hs)
    · rw [← Path.toList_withSegments]
      exact mt String.toList_eq_nil_iff.1 hne
  have hnull : ¬ p.text.toList.contains '\x00' = true → ¬ (p.withSegments segs).text.toList.contains '\x00' = true := by
    rw [List.contains_iff_mem, List.contains_iff_mem]
    exact mt fun hmem => (Path.prefix_withSegments hsegs).subset hmem
  rw [find, if_neg hne, Path.isAbsolute_withSegments hsegs hne, hwalk, hwalk, startOf]
  rw [find] at h
  split at h
  · cases h
  · split at h
    · cases h
    · next hclean =>
      rw [if_neg (hnull hclean)]
      split at h
      · next habs => rw [if_pos habs, if_pos habs]
      · next hrel =>
        rw [if_neg hrel, if_neg hrel]
        split at h
        · rfl
        · cases h

theorem text_ne_of_find {found : Location × Option Node} (h : d.find follow p = .ok found) : p.text ≠ "" := by
  intro hempty
  rw [find, if_pos hempty] at h
  cases h

theorem find_eq_walk {found : Location × Option Node} (h : d.find follow p = .ok found) (follow' : Bool) :
    d.find follow' p = d.walk follow' 40 (d.startOf p) (p.segments.map String.ofList) := by
  have := find_withSegments h List.prefix_rfl (by rw [p.withSegments_segments]; exact text_ne_of_find h) follow'
  rwa [p.withSegments_segments] at this

/-! ## Directories that are there -/

theorem isDir_iff : d.isDir p = true ↔ ∃ loc, d.find true p = .ok (loc, some .dir) := by
  rw [isDir]
  constructor
  · intro h
    split at h
    · next loc n hstat =>
      cases n with
      | dir => exact ⟨loc, stat_eq_ok_iff.1 hstat⟩
      | file bytes executable => cases h
      | program name => cases h
      | link target => cases h
    · cases h
  · rintro ⟨loc, hfind⟩
    rw [stat_eq_ok_iff.2 hfind]
    rfl

/-- What goes on after some segments of a path has a directory there. -/
theorem isDir_withSegments {found : Location × Option Node} {more : List (List Char)} (hhere : d.IsOpen d.here)
    (h : d.find follow p = .ok found) (hsegs : p.segments = segs ++ more) (hmore : more ≠ [])
    (hne : (p.withSegments segs).text ≠ "") : d.isDir (p.withSegments segs) = true := by
  have hwalk := find_eq_walk h follow
  rw [h, hsegs, List.map_append] at hwalk
  obtain ⟨dir, -, -, hdir, -⟩ := exists_walk_of_append (isOpen_startOf p hhere) (by simpa using hmore) hwalk.symm _ rfl
  exact isDir_iff.2 ⟨dir, by rw [find_withSegments h ⟨more, hsegs.symm⟩ hne, hdir]⟩

theorem isDir_trimEnd (hhere : d.IsOpen d.here) (h : d.isDir p = true) : d.isDir p.trimEnd = true := by
  obtain ⟨loc, hfind⟩ := isDir_iff.1 h
  obtain ⟨idle, hsegs, -⟩ := Path.exists_dropIdleEnd p.segments
  cases idle with
  | nil =>
    rw [List.append_nil] at hsegs
    rw [Path.trimEnd_eq, ← hsegs, p.withSegments_segments, h]
  | cons s idle =>
    exact isDir_withSegments hhere hfind hsegs (by simp) (Path.trimEnd_text_ne (text_ne_of_find hfind))

/-- A directory that is there is not made again. -/
theorem makeDirs_of_isDir (hhere : d.IsOpen d.here) (h : d.isDir p = true) : d.makeDirs p = .ok d := by
  obtain ⟨above, habove⟩ : ∃ above, p.ancestors = p :: above := ⟨_, rfl⟩
  obtain ⟨loc, hfind⟩ := isDir_iff.1 (isDir_trimEnd hhere h)
  have hwalk := find_eq_walk hfind
  obtain ⟨there, n, hthere⟩ := exists_walk_false ((hwalk true).symm.trans hfind)
  have hmake : d.makeDir p = .error .alreadyExists := by rw [makeDir, hwalk, hthere]
  rw [makeDirs, habove, makeDirsFrom, hmake]
  dsimp only
  rw [if_pos h, ite_self]

/-- The directory of what is there, and is none itself, is there, or is where relative paths start. -/
theorem isDir_parent? {n : Node} (hhere : d.IsOpen d.here) (hn : n ≠ .dir) (h : d.find follow p = .ok (loc, some n)) :
    ∃ dir, p.parent? = some dir ∧ (dir.text = "" ∨ d.isDir dir = true) := by
  have hwalk := find_eq_walk h follow
  rw [h] at hwalk
  obtain ⟨first, name, hsegs, hidle, hup⟩ := exists_name_of_walk (isOpen_startOf p hhere) hn hwalk.symm
  obtain ⟨segs, last, hlast, rfl⟩ : ∃ segs last, p.segments = segs ++ [last] ∧ String.ofList last = name := by
    obtain ⟨segs, lasts, hsegs, -, hlasts⟩ := List.map_eq_append_iff.1 hsegs
    obtain ⟨last, rfl, hlast⟩ := List.map_eq_singleton_iff.1 hlasts
    exact ⟨segs, last, hsegs, hlast⟩
  have hstep : Path.isIdle last = false := by
    have hslash : '/' ∉ (String.ofList last).toList := by
      rw [String.toList_ofList]
      apply Path.slash_notMem_of_mem_splitHead (s := p.text.toList)
      show last ∈ p.segments
      simp [hlast]
    have hproper := (proper_of_segment hslash (by simpa using hidle) hup).2.1
    rwa [String.toList_ofList] at hproper
  refine ⟨_, Path.parent?_of_segments hlast hstep, ?_⟩
  by_cases hempty : (p.withSegments (Path.dropIdleEnd segs)).text = ""
  · exact .inl hempty
  · right
    obtain ⟨idle, hsegs, -⟩ := Path.exists_dropIdleEnd segs
    have hall : p.segments = Path.dropIdleEnd segs ++ (idle ++ [last]) := by
      rw [← List.append_assoc, ← hsegs, hlast]
    exact isDir_withSegments hhere h hall (by simp) hempty

/-- A text is read from files only, not from the programs of the system. -/
theorem find_of_readText {text : String} (h : d.readText p = .ok text) :
    ∃ loc bytes executable, d.find true p = .ok (loc, some (.file bytes executable)) := by
  have hprogram : Text.decode? ⟨#[0x7F, 0x45, 0x4C, 0x46, 0xFF]⟩ = none := by decide +kernel
  rw [readText, readBytes] at h
  cases hstat : d.stat true p with
  | error e =>
    rw [hstat] at h
    cases h
  | ok found =>
    obtain ⟨loc, n⟩ := found
    rw [hstat] at h
    cases n with
    | file bytes executable => exact ⟨loc, bytes, executable, stat_eq_ok_iff.1 hstat⟩
    | dir => cases h
    | program name =>
      dsimp only at h
      rw [hprogram] at h
      cases h
    | link target =>
      dsimp only at h
      rw [hprogram] at h
      cases h

end LintHub.Disk
