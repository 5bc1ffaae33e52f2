import LintHub.Proofs.Disk.Ways

/-!
# What is written is read

* `Text.decode?_toUTF8` : the bytes of a text are read as the text.
* `Disk.walk_put` : a file that is put at the end of a way does not change the way.
* `Disk.readText_write` : a file that was written has the text, and is there.
* `Disk.SameAt` : two disks are the same to whoever looks at one path.
-/

namespace LintHub

theorem Text.decode?_toUTF8 (s : String) : Text.decode? s.toUTF8 = some s := by
  rw [Text.decode?, String.fromUTF8?]
  split
  · rfl
  · next h => exact absurd s.isValidUTF8 h

theorem Text.decodeLossy_toUTF8 (s : String) : Text.decodeLossy s.toUTF8 = s := by
  rw [Text.decodeLossy, Text.decode?_toUTF8]

namespace Disk

/-! ## Nodes -/

theorem node?_put_self {d : Disk} {loc : Location} (n : Node) (h : loc ≠ []) : (d.put loc n).node? loc = some n := by
  simp [node?, put, h]

theorem node?_put_of_ne (d : Disk) {loc other : Location} (n : Node) (h : other ≠ loc) :
    (d.put loc n).node? other = d.node? other := by
  have hfind : (d.nodes.filter fun entry => entry.1 != loc).find? (fun entry => entry.1 == other) =
      d.nodes.find? (fun entry => entry.1 == other) := by
    rw [List.find?_filter]
    congr 1
    funext entry
    by_cases he : entry.1 = other
    · simp [he, h]
    · simp [he]
  have hne : (loc == other) = false := by simpa using h.symm
  simp only [node?, put, erase, List.find?_cons, hne, hfind]

/-- A file may be written there: nothing stands there, or a file. -/
def IsFree : Option Node → Prop
  | none => True
  | some (.file _ _) => True
  | _ => False

/-! ## Ways -/

/-- The way to a place where a file may be written stays when a file is put there. -/
theorem walk_put {d : Disk} {follow : Bool} {links : Nat} {here loc : Location} {todo : List String}
    {found : Option Node} {bytes : ByteArray} {executable : Bool}
    (h : d.walk follow links here todo = .ok (loc, found)) (hfree : IsFree (d.node? loc)) (hloc : loc ≠ []) :
    (d.put loc (.file bytes executable)).walk follow links here todo =
      .ok (loc, some (.file bytes executable)) := by
  have hself := node?_put_self (d := d) (.file bytes executable) hloc
  have hother {l : Location} {n : Node} (hl : d.node? l = some n) (hn : ¬ IsFree (some n)) :
      (d.put loc (.file bytes executable)).node? l = some n := by
    rw [node?_put_of_ne, hl]
    rintro rfl
    rw [hl] at hfree
    exact hn hfree
  -- Along the way only directories and links are passed, and none of them is the place of the file.
  fun_induction walk d follow links here todo with
  | case1 links here =>
    obtain ⟨rfl, -⟩ := Prod.mk.inj (Except.ok.inj h)
    rw [walk, hself]
  | case2 links here segment rest hidle ih =>
    rw [walk, if_pos hidle]
    exact ih h
  | case3 links here rest hidle ih =>
    rw [walk, if_neg hidle, if_pos rfl]
    exact ih h
  | case4 links here segment rest hidle hup hlong => cases h
  | case5 links here segment rest hidle hup hlong l hnone hlast =>
    have hend : here ++ [segment] = loc := congrArg Prod.fst (Except.ok.inj h)
    rw [List.isEmpty_iff.1 hlast, walk_end hidle hup hlong (by rw [hend, hself]) (by simp) (by simp), hend]
  | case6 links here segment rest hidle hup hlong l hnone hlast => cases h
  | case7 links here segment rest hidle hup hlong l hdir ih =>
    have hnode : (d.put loc (.file bytes executable)).node? (here ++ [segment]) = some .dir :=
      hother hdir (by simp [IsFree])
    rw [walk_dir hidle hup hlong hnode]
    exact ih h
  | case8 links here segment rest hidle hup hlong l target hlink hlast =>
    obtain ⟨rfl, -⟩ := Prod.mk.inj (Except.ok.inj h)
    rw [hlink] at hfree
    exact hfree.elim
  | case9 here segment rest hidle hup hlong l target hlink hlast => cases h
  | case10 here segment rest hidle hup hlong l hlast more hlink => cases h
  | case11 here segment rest hidle hup hlong l target hlink hlast more htarget ih =>
    have hnode : (d.put loc (.file bytes executable)).node? (here ++ [segment]) = some (.link target) :=
      hother hlink (by simp [IsFree])
    rw [walk_link hidle hup hlong hnode htarget hlast]
    exact ih h
  | case12 links here segment rest hidle hup hlong l n hdir hlink hnode hlast =>
    have hend : here ++ [segment] = loc := congrArg Prod.fst (Except.ok.inj h)
    rw [List.isEmpty_iff.1 hlast, walk_end hidle hup hlong (by rw [hend, hself]) (by simp) (by simp), hend]
  | case13 links here segment rest hidle hup hlong l n hdir hlink hnode hlast => cases h

/-- A way ends at what stands there. -/
theorem node?_of_walk {d : Disk} {follow : Bool} {links : Nat} {here loc : Location} {todo : List String}
    {found : Option Node} (h : d.walk follow links here todo = .ok (loc, found)) : d.node? loc = found := by
  fun_induction walk d follow links here todo with
  | case1 links here =>
    obtain ⟨rfl, rfl⟩ := Prod.mk.inj (Except.ok.inj h)
    rfl
  | case2 links here segment rest hidle ih => exact ih h
  | case3 links here rest hidle ih => exact ih h
  | case4 links here segment rest hidle hup hlong => cases h
  | case5 links here segment rest hidle hup hlong l hnone hlast =>
    obtain ⟨rfl, rfl⟩ := Prod.mk.inj (Except.ok.inj h)
    exact hnone
  | case6 links here segment rest hidle hup hlong l hnone hlast => cases h
  | case7 links here segment rest hidle hup hlong l hdir ih => exact ih h
  | case8 links here segment rest hidle hup hlong l target hlink hlast =>
    obtain ⟨rfl, rfl⟩ := Prod.mk.inj (Except.ok.inj h)
    exact hlink
  | case9 here segment rest hidle hup hlong l target hlink hlast => cases h
  | case10 here segment rest hidle hup hlong l hlast more hlink => cases h
  | case11 here segment rest hidle hup hlong l target hlink hlast more htarget ih => exact ih h
  | case12 links here segment rest hidle hup hlong l n hdir hlink hnode hlast =>
    obtain ⟨rfl, rfl⟩ := Prod.mk.inj (Except.ok.inj h)
    exact hnode
  | case13 links here segment rest hidle hup hlong l n hdir hlink hnode hlast => cases h

theorem ne_nil_of_isFree {d : Disk} {loc : Location} (h : IsFree (d.node? loc)) : loc ≠ [] := by
  rintro rfl
  exact h

/-- A path that leads where a file may be written leads to the file that is put there. -/
theorem find_put {d : Disk} {p : Path} {loc : Location} {found : Option Node} {bytes : ByteArray} {executable : Bool}
    (h : d.find true p = .ok (loc, found)) (hfree : IsFree found) :
    (d.put loc (.file bytes executable)).find true p = .ok (loc, some (.file bytes executable)) := by
  have hwalk {here : Location} (h : d.walk true 40 here (segmentsOf p.text) = .ok (loc, found)) :
      (d.put loc (.file bytes executable)).walk true 40 here (segmentsOf p.text) =
        .ok (loc, some (.file bytes executable)) := by
    have hnode : IsFree (d.node? loc) := by rw [node?_of_walk h]; exact hfree
    exact walk_put h hnode (ne_nil_of_isFree hnode)
  rw [find] at h ⊢
  split at h
  · cases h
  · next hempty =>
    rw [if_neg hempty]
    split at h
    · cases h
    · next hnull =>
      rw [if_neg hnull]
      split at h
      · next habs =>
        rw [if_pos habs]
        exact hwalk h
      · next habs =>
        rw [if_neg habs]
        split at h
        · next hhere =>
          have hnode : IsFree (d.node? loc) := by rw [node?_of_walk h]; exact hfree
          have hne : d.here ≠ loc := by
            rintro rfl
            rw [hhere] at hnode
            exact hnode
          rw [show (d.put loc (.file bytes executable)).here = d.here from rfl, node?_put_of_ne d _ hne, hhere]
          exact hwalk h
        · cases h

theorem has_of_readText {d : Disk} {p : Path} {text : String} (h : d.readText p = .ok text) : d.has p = true := by
  rw [readText, readBytes] at h
  rw [has]
  cases hstat : d.stat true p with
  | ok found => rfl
  | error e =>
    rw [hstat] at h
    cases h

/-- What is written to a file is read from it. -/
theorem readText_write {d written : Disk} {p : Path} {text : String} (h : d.write p text = .ok written) :
    written.readText p = .ok text ∧ written.has p = true := by
  obtain ⟨loc, found, executable, hfind, hfree, rfl⟩ : ∃ loc found executable, d.find true p = .ok (loc, found) ∧
      IsFree found ∧ written = d.put loc (.file text.toUTF8 executable) := by
    rw [write, writeBytes] at h
    split at h
    · next loc hfind => exact ⟨loc, none, false, hfind, trivial, (Except.ok.inj h).symm⟩
    · next loc bytes executable hfind => exact ⟨loc, _, executable, hfind, trivial, (Except.ok.inj h).symm⟩
    · cases h
    · cases h
    · cases h
  have hstat : (d.put loc (.file text.toUTF8 executable)).stat true p = .ok (loc, .file text.toUTF8 executable) := by
    rw [stat, find_put hfind hfree]
  constructor
  · simp only [readText, readBytes, hstat, Text.decode?_toUTF8]
  · simp only [has, hstat]

/-! ## One path -/

/-- Two disks have the same at a path: something is there or not, and it has the same text. -/
def SameAt (p : Path) (d d' : Disk) : Prop := d'.has p = d.has p ∧ d'.readText p = d.readText p

theorem SameAt.refl (p : Path) (d : Disk) : SameAt p d d := ⟨rfl, rfl⟩

theorem SameAt.trans {p : Path} {a b c : Disk} (hab : SameAt p a b) (hbc : SameAt p b c) : SameAt p a c :=
  ⟨hbc.1.trans hab.1, hbc.2.trans hab.2⟩

end Disk

end LintHub
