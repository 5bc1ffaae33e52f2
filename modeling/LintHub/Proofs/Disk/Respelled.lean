import LintHub.Proofs.Disk.Parents

/-!
# Files under other spellings

* `walk_append_congr` : idle segments do not matter for a way, unless they end it.
* `readText_of_same` : a file is read under each spelling of its path that does not end with an idle segment.
-/

namespace LintHub.Disk

open Text (pieces)

variable {d : Disk} {here : Location} {follow : Bool} {links : Nat} {first first' rest todo todo' : List String}

/-! ## Ways -/

theorem walk_idle (h : ∀ s ∈ first, isIdle s = true) :
    d.walk follow links here (first ++ todo) = d.walk follow links here todo := by
  induction first with
  | nil => rfl
  | cons s first ih =>
    rw [List.cons_append, walk, if_pos (h s (by simp))]
    exact ih fun t ht => h t (by simp [ht])

/-- Ways that agree from each directory, and from each link with fewer links to follow, agree one segment earlier. -/
theorem walk_cons_congr (segment : String) (hmore : todo ≠ []) (hmore' : todo' ≠ [])
    (hon : ∀ here, d.walk follow links here todo = d.walk follow links here todo')
    (hlink : ∀ fewer < links, ∀ here target,
      d.walk follow fewer here (segmentsOf target ++ todo) = d.walk follow fewer here (segmentsOf target ++ todo')) :
    d.walk follow links here (segment :: todo) = d.walk follow links here (segment :: todo') := by
  rw [walk, walk, List.isEmpty_eq_false_iff.2 hmore, List.isEmpty_eq_false_iff.2 hmore']
  cases links with
  | zero => simp only [hon]
  | succ fewer => simp only [hon, hlink fewer (Nat.lt_succ_self fewer)]

/-- Idle segments in front of others do not matter. -/
theorem walk_append_congr (hrest : rest ≠ [])
    (h : first.filter (fun s => !isIdle s) = first'.filter fun s => !isIdle s) :
    d.walk follow links here (first ++ rest) = d.walk follow links here (first' ++ rest) := by
  -- A link puts its own segments in front, and leaves fewer links to follow.
  induction links using Nat.strongRecOn generalizing here first first' with
  | ind links hlinks =>
    induction first generalizing here first' with
    | nil =>
      have hidle : ∀ s ∈ first', isIdle s = true := by
        intro s hs
        simpa using List.filter_eq_nil_iff.1 h.symm s hs
      exact (walk_idle hidle).symm
    | cons segment first ih =>
      by_cases hidle : isIdle segment = true
      · rw [List.cons_append, walk, if_pos hidle]
        rw [List.filter_cons_of_neg (by simp [hidle])] at h
        exact ih h
      · rw [List.filter_cons_of_pos (by simpa using hidle)] at h
        obtain ⟨idle, others, rfl, hskip, -, hothers⟩ := List.filter_eq_cons_iff.1 h.symm
        have hidles : ∀ s ∈ idle, isIdle s = true := by
          intro s hs
          simpa using hskip s hs
        rw [List.append_assoc, walk_idle hidles, List.cons_append, List.cons_append]
        refine walk_cons_congr segment (by simp [hrest]) (by simp [hrest]) (fun _ => ih hothers.symm) ?_
        intro fewer hfewer here target
        rw [← List.append_assoc, ← List.append_assoc]
        apply hlinks fewer hfewer
        rw [List.filter_append, List.filter_append, hothers]

/-! ## Files -/

variable {p q : Path}

theorem isIdle_ofList (s : List Char) : isIdle (String.ofList s) = Path.isIdle s := by
  have hempty : (String.ofList s == "") = s.isEmpty := by
    rw [Bool.eq_iff_iff, beq_iff_eq, List.isEmpty_iff, ← String.toList_inj, String.toList_ofList]
    rfl
  have hdot : (String.ofList s == ".") = (s == ['.']) := by
    rw [Bool.eq_iff_iff, beq_iff_eq, beq_iff_eq, ← String.toList_inj, String.toList_ofList]
    rfl
  rw [isIdle, Path.isIdle, hempty, hdot]

theorem segmentsOf_of_same (hp : p.isAbsolute = true) (h : p.components = q.components) :
    (segmentsOf p.text).filter (fun s => !isIdle s) = (segmentsOf q.text).filter fun s => !isIdle s := by
  have hidle : (fun s => !isIdle s) ∘ String.ofList = fun s => !Path.isIdle s := by
    funext s
    exact congrArg _ (isIdle_ofList s)
  rw [segmentsOf, segmentsOf, List.filter_map, List.filter_map, hidle, Path.pieces_of_same hp h]

theorem find_of_isAbsolute (hp : p.isAbsolute = true) (hnull : '\x00' ∉ p.text.toList) :
    d.find follow p = d.walk follow 40 [] (segmentsOf p.text) := by
  have hne : p.text ≠ "" := by
    intro hempty
    rw [Path.isAbsolute, hempty] at hp
    cases hp
  rw [find, if_neg hne, if_neg (mt List.contains_iff_mem.1 hnull), if_pos hp]

theorem null_notMem_of_find {found : Location × Option Node} (h : d.find follow p = .ok found) :
    '\x00' ∉ p.text.toList := by
  intro hnull
  rw [find, if_neg (text_ne_of_find h), if_pos (List.contains_iff_mem.2 hnull)] at h
  cases h

theorem exists_segmentsOf (hend : ∀ s ∈ (pieces '/' p.text.toList).getLast?, Path.isIdle s = false) :
    ∃ first name, segmentsOf p.text = first ++ [name] ∧ isIdle name = false := by
  obtain ⟨segs, s, hsegs⟩ :=
    (List.eq_nil_or_concat' (pieces '/' p.text.toList)).resolve_left (pieces_ne_nil '/' _)
  refine ⟨segs.map String.ofList, String.ofList s, ?_, ?_⟩
  · rw [segmentsOf, hsegs, List.map_append, List.map_singleton]
  · rw [isIdle_ofList]
    exact hend s (by simp [hsegs])

/-- A file is read under each spelling of its path that does not end with an idle segment. -/
theorem readText_of_same {text : String} (hp : p.isAbsolute = true) (hsame : q.components = p.components)
    (hend : ∀ s ∈ (pieces '/' q.text.toList).getLast?, Path.isIdle s = false) (h : d.readText p = .ok text) :
    d.readText q = .ok text := by
  have hq : q.isAbsolute = true := Path.isAbsolute_eq_of_same hsame ▸ hp
  obtain ⟨loc, bytes, executable, hfind⟩ := find_of_readText h
  have hnull : '\x00' ∉ p.text.toList := null_notMem_of_find hfind
  have hnull' : '\x00' ∉ q.text.toList :=
    mt (Path.mem_text_of_same hq hsame (by decide) (by decide)) hnull
  -- The way to a file ends with a name, so that both spellings end with the same segment.
  have hwalk := hfind
  rw [find_of_isAbsolute hp hnull] at hwalk
  obtain ⟨first, name, hfirst, hname, -⟩ := exists_name_of_walk (isOpen_nil d) (by simp) hwalk
  obtain ⟨first', name', hfirst', hname'⟩ := exists_segmentsOf hend
  have hsegments := segmentsOf_of_same hq hsame
  rw [hfirst, hfirst', List.filter_append, List.filter_append, List.filter_singleton, List.filter_singleton, hname,
    hname'] at hsegments
  obtain ⟨hfront, hlast⟩ := List.append_inj' hsegments rfl
  obtain rfl : name' = name := List.singleton_inj.1 hlast
  have hsameFind : d.find true q = d.find true p := by
    rw [find_of_isAbsolute hq hnull', find_of_isAbsolute hp hnull, hfirst, hfirst',
      walk_append_congr (by simp) hfront]
  rw [← h, readText, readText, readBytes, readBytes, stat, stat, hsameFind]

end LintHub.Disk
