import LintHub.Proofs.Disk.Places

/-!
# What a walk reaches

* `Disk.Enters` : a directory lies below another one, and all directories on the way are entered. A link is no
  directory, so none is followed.
* `Disk.Reaches` : a file stands in a directory that is entered from a path.
* `Disk.length_le_depth` : no location is deeper than the depth that bounds a walk.
* `Disk.mem_tree_iff` : a walk from a canonical directory comes to a file exactly if it is reached.
-/

namespace LintHub.Disk

variable {d : Disk} {enter : String → Bool} {loc dir : Location} {name : String} {n : Node} {p : Path}

/-- The second location is a directory that is entered from the first. -/
inductive Enters (d : Disk) (enter : String → Bool) : Location → Location → Prop
  | refl (loc : Location) : Enters d enter loc loc
  | down {loc dir : Location} {name : String} (hdir : d.node? (loc ++ [name]) = some .dir) (hname : enter name = true)
      (hrest : Enters d enter (loc ++ [name]) dir) : Enters d enter loc dir

/-- The path is that of a file in a directory that is entered from the directory `base`. -/
def Reaches (d : Disk) (enter : String → Bool) (base p : Path) : Prop :=
  ∃ top dir name n, d.stat true base = .ok (top, .dir) ∧ d.Enters enter top dir ∧
    d.node? (dir ++ [name]) = some n ∧ n.isFile = true ∧ p = pathOf (dir ++ [name])

theorem Enters.length_le (h : d.Enters enter loc dir) : loc.length ≤ dir.length := by
  induction h with
  | refl loc => exact Nat.le_refl _
  | down hdir hname hrest ih =>
    rw [List.length_append, List.length_singleton] at ih
    omega

/-! ## Names and depth -/

theorem exists_entry_of_node? (h : d.node? loc = some n) (hloc : loc ≠ []) : ∃ entry ∈ d.nodes, entry.1 = loc := by
  rw [node?, if_neg (by simpa using hloc)] at h
  obtain ⟨entry, hentry, -⟩ := Option.map_eq_some_iff.1 h
  exact ⟨entry, List.mem_of_find?_eq_some hentry, by simpa using List.find?_some hentry⟩

theorem mem_namesIn (h : d.node? (loc ++ [name]) = some n) : name ∈ d.namesIn loc := by
  obtain ⟨entry, hentry, hloc⟩ := exists_entry_of_node? h (by simp)
  exact List.mem_filterMap.2 ⟨entry, hentry, by simp [hloc]⟩

theorem le_foldl_max {lengths : List Nat} {a k : Nat} (h : k ∈ lengths ∨ k ≤ a) : k ≤ lengths.foldl max a := by
  induction lengths generalizing a with
  | nil => simpa using h
  | cons b lengths ih =>
    apply ih
    rcases h with h | h
    · rcases List.mem_cons.1 h with rfl | h
      · right
        omega
      · exact .inl h
    · right
      omega

theorem length_le_depth (h : d.node? loc = some n) : loc.length ≤ d.depth := by
  by_cases hloc : loc = []
  · simp [hloc]
  · obtain ⟨entry, hentry, rfl⟩ := exists_entry_of_node? h hloc
    exact le_foldl_max (.inl (List.mem_map.2 ⟨entry, hentry, rfl⟩))

/-! ## Below a directory -/

section WellNamed

variable (hd : d.WellNamed)

include hd

/-- What a walk passes is reached: by the name that comes next, or from the directory of that name on. -/
theorem enters_of_mem_entriesUnder {depth : Nat} {entry : Path × Node} (hloc : IsPlace loc)
    (hfile : entry.2.isFile = true) (h : entry ∈ d.entriesUnder enter depth (pathOf loc) loc) :
    ∃ dir name, d.Enters enter loc dir ∧ d.node? (dir ++ [name]) = some entry.2 ∧
      entry.1 = pathOf (dir ++ [name]) := by
  induction depth generalizing loc with
  | zero => cases h
  | succ depth ih =>
    obtain ⟨name, -, h⟩ := List.mem_flatMap.1 h
    split at h
    · next hnode =>
      have hplace := isPlace_of_node? hd hnode
      rw [child_pathOf hloc (hplace name (by simp))] at h
      split at h
      · next hname =>
        rcases List.mem_cons.1 h with rfl | h
        · cases hfile
        · obtain ⟨dir, last, henters, hlast⟩ := ih hplace h
          exact ⟨dir, last, .down hnode hname henters, hlast⟩
      · cases h
    · next n _ hnode =>
      have hplace := isPlace_of_node? hd hnode
      rw [child_pathOf hloc (hplace name (by simp)), List.mem_singleton] at h
      subst h
      exact ⟨loc, name, .refl loc, hnode, rfl⟩
    · cases h

/-- Whatever is reached is passed by a walk that goes deep enough. -/
theorem mem_entriesUnder_of_enters {depth : Nat} (hloc : IsPlace loc) (h : d.Enters enter loc dir)
    (hnode : d.node? (dir ++ [name]) = some n) (hfile : n.isFile = true)
    (hdepth : dir.length < loc.length + depth) :
    (pathOf (dir ++ [name]), n) ∈ d.entriesUnder enter depth (pathOf loc) loc := by
  induction h generalizing depth with
  | refl loc =>
    obtain ⟨depth, rfl⟩ : ∃ more, depth = more + 1 := ⟨depth - 1, by omega⟩
    have hproper := isPlace_of_node? hd hnode name (by simp)
    refine List.mem_flatMap.2 ⟨name, mem_namesIn hnode, ?_⟩
    rw [hnode, child_pathOf hloc hproper]
    cases n with
    | file bytes executable => simp
    | program name => simp
    | dir => cases hfile
    | link target => cases hfile
  | @down loc dir step hdir hname hrest ih =>
    have hlength := hrest.length_le
    rw [List.length_append, List.length_singleton] at hlength
    obtain ⟨depth, rfl⟩ : ∃ more, depth = more + 1 := ⟨depth - 1, by omega⟩
    have hplace := isPlace_of_node? hd hdir
    refine List.mem_flatMap.2 ⟨step, mem_namesIn hdir, ?_⟩
    rw [hdir, child_pathOf hloc (hplace step (by simp))]
    simp only [hname, if_true]
    refine List.mem_cons_of_mem _ (ih hplace hnode ?_)
    rw [List.length_append, List.length_singleton]
    omega

/-- A walk from a canonical directory comes to the files that are reached from there. -/
theorem mem_tree_iff (hcanonical : d.canonical p = .ok p) (hdir : d.isDir p = true) {q : Path} :
    (∃ n : Node, n.isFile = true ∧ (q, n) ∈ d.tree enter p) ↔ d.Reaches enter p q := by
  obtain ⟨top, node, hstat, hp⟩ := canonical_eq_ok hcanonical
  have htop : IsPlace top := isPlace_of_stat (by rw [hp]; exact isAbsolute_pathOf top) hstat
  have hnode : node = .dir := by
    rw [isDir, hstat] at hdir
    cases node with
    | dir => rfl
    | file bytes executable => cases hdir
    | program name => cases hdir
    | link target => cases hdir
  subst hnode
  have htree : d.tree enter p = (p, .dir) :: d.entriesUnder enter (d.depth + 1) (pathOf top) top := by
    rw [tree, hstat, ← hp]
  rw [htree]
  constructor
  · rintro ⟨n, hfile, hmem⟩
    rcases List.mem_cons.1 hmem with heq | hmem
    · obtain rfl := (Prod.mk.inj heq).2
      cases hfile
    · obtain ⟨dir, name, henters, hlast, rfl⟩ := enters_of_mem_entriesUnder hd htop hfile hmem
      exact ⟨top, dir, name, n, hstat, henters, hlast, hfile, rfl⟩
  · rintro ⟨top', dir, name, n, hstat', henters, hlast, hfile, rfl⟩
    obtain rfl : top = top' := by
      rw [hstat] at hstat'
      exact (Prod.mk.inj (Except.ok.inj hstat')).1
    have hdepth := length_le_depth hlast
    rw [List.length_append, List.length_singleton] at hdepth
    refine ⟨n, hfile, List.mem_cons_of_mem _ ?_⟩
    apply mem_entriesUnder_of_enters hd htop henters hlast hfile
    omega

end WellNamed

end LintHub.Disk
