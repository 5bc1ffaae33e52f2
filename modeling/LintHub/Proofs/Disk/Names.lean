import LintHub.Proofs.Disk.Writing

/-!
# Paths of plain names

* `Disk.follow?` goes from directory to directory by names alone. It is `Disk.walk` without dots, steps up and links,
  which need a measure, so it can be evaluated.
* `Disk.find_of_follow?`, `Disk.stat_of_follow?`, `Disk.readText_of_follow?` : where it leads, the path leads.
* `Disk.write_of_follow?`, `Disk.makeDirs_of_follow?` : files and directories are made there.
-/

namespace LintHub.Disk

/-- Where names lead; none where a directory on the way is missing, or a name is no plain one. -/
def follow? (d : Disk) (here : Location) : List String → Option (Location × Option Node)
  | [] => some (here, d.node? here)
  | name :: rest =>
    if isIdle name || name == ".." || 255 < name.utf8ByteSize then none
    else
      match d.node? (here ++ [name]) with
      | some .dir => follow? d (here ++ [name]) rest
      | some (.link _) => none
      | found => if rest.isEmpty then some (here ++ [name], found) else none

/-- The path is absolute and its segments are these names. -/
def IsPlain (p : Path) (names : List String) : Prop :=
  p.isAbsolute = true ∧ p.text.toList.contains '\x00' = false ∧ segmentsOf p.text = "" :: names

instance (p : Path) (names : List String) : Decidable (IsPlain p names) := inferInstanceAs (Decidable (_ ∧ _))

variable {d : Disk} {p : Path} {names : List String} {here loc : Location} {found : Option Node}

theorem walk_of_follow? (follow : Bool) (links : Nat) (h : d.follow? here names = some (loc, found)) :
    d.walk follow links here names = .ok (loc, found) := by
  induction names generalizing here with
  | nil =>
    obtain ⟨rfl, rfl⟩ := Prod.mk.inj (Option.some.inj h)
    rw [walk]
  | cons name rest ih =>
    rw [follow?] at h
    split at h
    · cases h
    · next hplain =>
      simp only [Bool.or_eq_true, beq_iff_eq, decide_eq_true_eq, not_or] at hplain
      obtain ⟨⟨hidle, hup⟩, hlong⟩ := hplain
      split at h
      · next hdir =>
        rw [walk_dir hidle hup hlong hdir]
        exact ih h
      · cases h
      · next hdir hlink =>
        split at h
        · next hlast =>
          obtain ⟨rfl, rfl⟩ := Prod.mk.inj (Option.some.inj h)
          rw [List.isEmpty_iff.1 hlast]
          exact walk_end hidle hup hlong rfl hdir fun _ => hlink
        · cases h

theorem IsPlain.text_ne (h : IsPlain p names) : p.text ≠ "" := by
  have habsolute := h.1
  intro htext
  rw [Path.isAbsolute, htext] at habsolute
  cases habsolute

theorem find_of_follow? (hplain : IsPlain p names) (follow : Bool) (h : d.follow? [] names = some (loc, found)) :
    d.find follow p = .ok (loc, found) := by
  have hempty := hplain.text_ne
  obtain ⟨habsolute, hnull, hsegments⟩ := hplain
  rw [find, if_neg hempty, if_neg (by rw [hnull]; decide), if_pos habsolute, hsegments, walk, if_pos (by decide)]
  exact walk_of_follow? follow 40 h

theorem stat_of_follow? {n : Node} (hplain : IsPlain p names) (h : d.follow? [] names = some (loc, some n)) :
    d.stat true p = .ok (loc, n) := by
  rw [stat, find_of_follow? hplain true h]

theorem isFile_of_follow? {b : Bool} (names : List String) (hplain : IsPlain p names)
    (h : (d.follow? [] names).map (fun found => found.2.any Node.isFile) = some b) : d.isFile p = b := by
  obtain ⟨⟨loc, found⟩, hfollow, rfl⟩ := Option.map_eq_some_iff.1 h
  rw [isFile, stat, find_of_follow? hplain true hfollow]
  cases found with
  | none => rfl
  | some n => rfl

theorem readText_of_follow? {text : String} {executable : Bool} (names : List String) (hplain : IsPlain p names)
    (h : d.follow? [] names = some (loc, some (.file text.toUTF8 executable))) : d.readText p = .ok text := by
  rw [readText, readBytes, stat_of_follow? hplain h]
  simp only [Text.decode?_toUTF8]

theorem readText_of_follow?_none (names : List String) (hplain : IsPlain p names)
    (h : d.follow? [] names = some (loc, none)) : d.readText p = .error .notFound := by
  rw [readText, readBytes, stat, find_of_follow? hplain true h]

/-- A file is made where nothing stands, in a directory that is there. -/
theorem write_of_follow? (names : List String) (hplain : IsPlain p names) (h : d.follow? [] names = some (loc, none))
    (text : String) : d.write p text = .ok (d.put loc (.file text.toUTF8 false)) := by
  rw [write, writeBytes, find_of_follow? hplain true h]

/-- A directory is made where nothing stands, in one that is there. -/
theorem makeDirs_of_follow? (names : List String) (hplain : IsPlain p names) (htrim : p.trimEnd = p)
    (h : d.follow? [] names = some (loc, none)) : d.makeDirs p = .ok (d.put loc .dir) := by
  obtain ⟨above, habove⟩ : ∃ above, p.ancestors = p :: above := ⟨_, rfl⟩
  rw [makeDirs, habove, makeDirsFrom, if_neg hplain.text_ne, makeDir, htrim, find_of_follow? hplain false h]

end LintHub.Disk
