import LintHub.Proofs.Finding.Order
import LintHub.Report.Result
import Mathlib.Data.List.Forall2

/-!
# Merging findings

`mergeFindings` gives the canonical form of a set of findings.

* `increasing_dedupAdjacent`, `reports_dedupAdjacent` : in an ordered list the findings that are the same stand side by
  side, so that dropping neighbours leaves one of each.
* `Increasing.sameFindings` : an increasing list is determined by what it reports.
* `mergeFindings_canonical` : what is merged is increasing, reports what the lists report, and depends on that only.
* `filter_mergeFindings` : a part of what is merged is the part of the lists, merged.
-/

namespace LintHub

open Std (TransCmp OrientedCmp ReflCmp)

/-- The findings stand in the order of reports, and no two of them are the same. -/
def Increasing (fs : List Finding) : Prop := fs.Pairwise fun f g => f.compare g = .lt

/-- A finding of the list is the same as `f`. -/
def Reports (fs : List Finding) (f : Finding) : Prop := ∃ g ∈ fs, g.same f = true

/-- Two lists with the same findings at the same places. -/
def SameFindings (fs gs : List Finding) : Prop := List.Forall₂ (fun f g => f.same g = true) fs gs

variable {f g : Finding} {fs gs : List Finding}

/-! ## The same findings -/

theorem same_iff : f.same g = true ↔ f.compare g = .eq := Finding.compare_eq_eq.symm

theorem reports_iff : Reports fs f ↔ ∃ g ∈ fs, g.compare f = .eq := by simp only [Reports, same_iff]

theorem reports_of_mem (h : f ∈ fs) : Reports fs f := reports_iff.2 ⟨f, h, ReflCmp.compare_self⟩

theorem reports_cons : Reports (g :: fs) f ↔ g.compare f = .eq ∨ Reports fs f := by
  simp only [reports_iff, List.exists_mem_cons_iff]

theorem reports_congr (h : f.compare g = .eq) : Reports fs f ↔ Reports fs g := by
  simp only [reports_iff, TransCmp.congr_right h]

theorem reports_perm (h : fs.Perm gs) : Reports fs f ↔ Reports gs f := by simp only [Reports, h.mem_iff]

theorem reports_flatten {lists : List (List Finding)} : Reports lists.flatten f ↔ ∃ l ∈ lists, Reports l f := by
  constructor
  · rintro ⟨g, hg, hsame⟩
    obtain ⟨l, hl, hgl⟩ := List.mem_flatten.1 hg
    exact ⟨l, hl, g, hgl, hsame⟩
  · rintro ⟨l, hl, g, hgl, hsame⟩
    exact ⟨g, List.mem_flatten.2 ⟨l, hl, hgl⟩, hsame⟩

/-! ## Dropping neighbours -/

theorem dedupAdjacent_sublist (fs : List Finding) : (dedupAdjacent fs).Sublist fs := by
  fun_induction dedupAdjacent fs with
  | case1 => exact .refl []
  | case2 f => exact .refl [f]
  | case3 f g rest _ ih => exact ih.trans ((List.sublist_cons_self g rest).cons_cons f)
  | case4 f g rest _ ih => exact ih.cons_cons f

theorem reports_dedupAdjacent (fs : List Finding) : Reports (dedupAdjacent fs) f ↔ Reports fs f := by
  fun_induction dedupAdjacent fs with
  | case1 => rfl
  | case2 => rfl
  | case3 g k rest hsame ih =>
    have hgk : g.compare k = .eq := same_iff.1 hsame
    rw [ih, reports_cons, reports_cons, reports_cons, ← TransCmp.congr_left hgk, ← or_assoc, or_self]
  | case4 g k rest _ ih =>
    rw [reports_cons, ih]
    exact reports_cons.symm

theorem le_iff : f.le g = true ↔ (f.compare g).isLE = true := by
  rw [Finding.le, bne_iff_ne, Ordering.isLE_iff_ne_gt]

theorem increasing_dedupAdjacent (h : fs.Pairwise fun f g => f.le g = true) : Increasing (dedupAdjacent fs) := by
  fun_induction dedupAdjacent fs with
  | case1 => exact .nil
  | case2 f => exact List.pairwise_singleton _ f
  | case3 f g rest _ ih => exact ih (h.sublist ((List.sublist_cons_self g rest).cons_cons f))
  | case4 f g rest hsame ih =>
    obtain ⟨hf, hrest⟩ := List.pairwise_cons.1 h
    have hfg : f.compare g = .lt := by
      have hle := le_iff.1 (hf g (by simp))
      rw [same_iff] at hsame
      cases hc : f.compare g with
      | lt => rfl
      | eq => exact absurd hc hsame
      | gt => simp [hc] at hle
    refine List.pairwise_cons.2 ⟨fun k hk => ?_, ih hrest⟩
    rcases List.mem_cons.1 ((dedupAdjacent_sublist _).subset hk) with rfl | hk
    · exact hfg
    · exact TransCmp.lt_of_lt_of_isLE hfg (le_iff.1 ((List.pairwise_cons.1 hrest).1 k hk))

/-! ## Increasing lists -/

theorem Increasing.not_reports_head (h : Increasing (f :: fs)) : ¬ Reports fs f := by
  rw [reports_iff]
  rintro ⟨g, hg, heq⟩
  have hlt := (List.pairwise_cons.1 h).1 g hg
  rw [OrientedCmp.eq_comm.1 heq] at hlt
  cases hlt

/-- What comes after the first finding is reported after a first finding that is the same. -/
theorem Increasing.reports_tail (h : Increasing (f :: fs)) (hfg : f.compare g = .eq)
    (hsub : ∀ k, Reports (f :: fs) k → Reports (g :: gs) k) (k : Finding) (hk : Reports fs k) : Reports gs k := by
  rcases reports_cons.1 (hsub k (reports_cons.2 (.inr hk))) with hgk | hgs
  · have hfk : f.compare k = .eq := TransCmp.eq_trans hfg hgk
    exact absurd ((reports_congr hfk).2 hk) h.not_reports_head
  · exact hgs

theorem Increasing.compare_heads (hf : Increasing (f :: fs)) (hg : Increasing (g :: gs))
    (hset : ∀ k, Reports (f :: fs) k ↔ Reports (g :: gs) k) : f.compare g = .eq := by
  rcases reports_cons.1 ((hset g).2 (reports_of_mem (by simp))) with heq | hgfs
  · exact heq
  rcases reports_cons.1 ((hset f).1 (reports_of_mem (by simp))) with heq | hfgs
  · exact OrientedCmp.eq_comm.1 heq
  -- Each first finding would come after the other.
  obtain ⟨k, hk, hkg⟩ := reports_iff.1 hgfs
  obtain ⟨l, hl, hlf⟩ := reports_iff.1 hfgs
  have hfg : f.compare g = .lt := TransCmp.lt_of_lt_of_eq ((List.pairwise_cons.1 hf).1 k hk) hkg
  have hgf : g.compare f = .lt := TransCmp.lt_of_lt_of_eq ((List.pairwise_cons.1 hg).1 l hl) hlf
  exact absurd hgf (OrientedCmp.not_lt_of_lt hfg)

theorem Increasing.sameFindings (hf : Increasing fs) (hg : Increasing gs) (hset : ∀ k, Reports fs k ↔ Reports gs k) :
    SameFindings fs gs := by
  induction fs generalizing gs with
  | nil =>
    cases gs with
    | nil => exact .nil
    | cons g gs =>
      obtain ⟨k, hk, -⟩ := (hset g).2 (reports_of_mem (by simp))
      cases hk
  | cons f fs ih =>
    cases gs with
    | nil =>
      obtain ⟨k, hk, -⟩ := (hset f).1 (reports_of_mem (by simp))
      cases hk
    | cons g gs =>
      have hfg := hf.compare_heads hg hset
      have htails (k : Finding) : Reports fs k ↔ Reports gs k :=
        ⟨hf.reports_tail hfg (fun k => (hset k).1) k,
          hg.reports_tail (OrientedCmp.eq_comm.1 hfg) (fun k => (hset k).2) k⟩
      exact .cons (same_iff.2 hfg) (ih (List.pairwise_cons.1 hf).2 (List.pairwise_cons.1 hg).2 htails)

/-! ## Merging -/

theorem Finding.le_trans (f g k : Finding) (hfg : f.le g = true) (hgk : g.le k = true) : f.le k = true :=
  le_iff.2 (TransCmp.isLE_trans (le_iff.1 hfg) (le_iff.1 hgk))

theorem Finding.le_total (f g : Finding) : (f.le g || g.le f) = true := by
  have hswap : g.compare f = (f.compare g).swap := OrientedCmp.eq_swap
  rw [Bool.or_eq_true, le_iff, le_iff, hswap]
  cases f.compare g <;> decide

theorem pairwise_sorted (fs : List Finding) : (fs.mergeSort Finding.le).Pairwise fun f g => f.le g = true :=
  List.pairwise_mergeSort Finding.le_trans Finding.le_total fs

theorem increasing_mergeFindings (lists : List (List Finding)) : Increasing (mergeFindings lists) :=
  increasing_dedupAdjacent (pairwise_sorted lists.flatten)

theorem reports_mergeFindings (lists : List (List Finding)) :
    Reports (mergeFindings lists) f ↔ ∃ l ∈ lists, Reports l f := by
  rw [mergeFindings, reports_dedupAdjacent, reports_perm (List.mergeSort_perm _ _), reports_flatten]

/-- Merging gives the canonical form of a set of findings. They increase strictly in the order of reports; a finding is
reported exactly if one of the lists reports it; lists that report the same, such as permuted, regrouped or repeated
ones, are merged into the same; and what is merged already may be merged again. -/
theorem mergeFindings_canonical (lists : List (List Finding)) :
    Increasing (mergeFindings lists) ∧
    (∀ f, Reports (mergeFindings lists) f ↔ ∃ l ∈ lists, Reports l f) ∧
    (∀ others : List (List Finding), (∀ f, (∃ l ∈ lists, Reports l f) ↔ ∃ l ∈ others, Reports l f) →
      SameFindings (mergeFindings lists) (mergeFindings others)) ∧
    ∀ others : List (List Finding),
      SameFindings (mergeFindings [mergeFindings lists, mergeFindings others]) (mergeFindings (lists ++ others)) := by
  refine ⟨increasing_mergeFindings lists, fun f => reports_mergeFindings lists, fun others hset => ?_,
    fun others => ?_⟩
  · refine (increasing_mergeFindings lists).sameFindings (increasing_mergeFindings others) fun f => ?_
    rw [reports_mergeFindings, reports_mergeFindings, hset]
  · refine (increasing_mergeFindings _).sameFindings (increasing_mergeFindings _) fun f => ?_
    rw [reports_mergeFindings, reports_mergeFindings]
    simp only [List.mem_append, or_and_right, exists_or, List.exists_mem_cons_iff, List.not_mem_nil, false_and,
      exists_false, or_false, reports_mergeFindings]

/-- A finding that is said twice, and one whose file is spelled in two ways. -/
theorem mergeFindings_canonical_respelled :
    SameFindings
      (mergeFindings [[.new ⟨"/w/b.yml"⟩ "r" "m" .yamllint, .new ⟨"/w/a.yml"⟩ "r" "m" .yamllint],
        [.new ⟨"/w/b.yml"⟩ "r" "m" .yamllint]])
      (mergeFindings [[.new ⟨"/w/a.yml"⟩ "r" "m" .yamllint], [.new ⟨"/w/./b.yml"⟩ "r" "m" .yamllint]]) := by
  have hspelling : (Finding.new ⟨"/w/b.yml"⟩ "r" "m" .yamllint).compare
      (Finding.new ⟨"/w/./b.yml"⟩ "r" "m" .yamllint) = .eq := by decide +kernel
  refine (mergeFindings_canonical _).2.2.1 _ fun f => ?_
  have hnone : ¬ Reports [] f := by simp [Reports]
  simp only [List.exists_mem_cons_iff, List.not_mem_nil, false_and, exists_false, or_false, reports_cons, hnone,
    TransCmp.congr_left hspelling]
  rw [or_right_comm, or_self, or_comm]

/-! ## Parts of a merged list -/

section Parts

variable {p : Finding → Bool}

/-- Sorting is stable: the first finding goes before those that it may stand before. -/
theorem sorted_cons (f : Finding) (fs : List Finding) :
    (f :: fs).mergeSort Finding.le =
      (fs.mergeSort Finding.le).filter (fun g => !f.le g) ++ f :: (fs.mergeSort Finding.le).filter f.le := by
  obtain ⟨before, after, hcons, hrest, hbefore⟩ := List.mergeSort_cons Finding.le_trans Finding.le_total f fs
  have hafter : ∀ g ∈ after, f.le g = true := by
    have hsorted := pairwise_sorted (f :: fs)
    rw [hcons, List.pairwise_append] at hsorted
    exact (List.pairwise_cons.1 hsorted.2.1).1
  have hbefore : ∀ g ∈ before, (!f.le g) = true := hbefore
  have hfirst : (before ++ after).filter (fun g => !f.le g) = before := by
    rw [List.filter_append, List.filter_eq_self.2 hbefore, List.filter_eq_nil_iff.2, List.append_nil]
    intro g hg
    simp [hafter g hg]
  have hlast : (before ++ after).filter f.le = after := by
    rw [List.filter_append, List.filter_eq_self.2 hafter, List.filter_eq_nil_iff.2, List.nil_append]
    intro g hg
    simpa using hbefore g hg
  rw [hcons, hrest, hfirst, hlast]

theorem filter_sorted (p : Finding → Bool) (fs : List Finding) :
    (fs.mergeSort Finding.le).filter p = (fs.filter p).mergeSort Finding.le := by
  induction fs with
  | nil => rw [List.filter_nil, List.mergeSort_nil, List.filter_nil]
  | cons f fs ih =>
    by_cases hf : p f = true
    · rw [List.filter_cons_of_pos hf, sorted_cons, sorted_cons, ← ih, List.filter_append, List.filter_cons_of_pos hf,
        List.filter_comm p, List.filter_comm p]
    · obtain ⟨before, after, hcons, hrest, -⟩ := List.mergeSort_cons Finding.le_trans Finding.le_total f fs
      rw [List.filter_cons_of_neg hf, ← ih, hcons, hrest, List.filter_append, List.filter_append,
        List.filter_cons_of_neg hf]

theorem dedupAdjacent_cons (h : ∀ g ∈ fs, f.same g = false) : dedupAdjacent (f :: fs) = f :: dedupAdjacent fs := by
  cases fs with
  | nil => simp only [dedupAdjacent]
  | cons g rest =>
    have hfg : f.same g = false := h g List.mem_cons_self
    rw [dedupAdjacent, hfg, if_neg Bool.false_ne_true]

/-- Findings that are the same stand side by side, also when findings between others are left out. -/
theorem filter_dedupAdjacent (hp : ∀ f g, f.same g = true → p f = p g)
    (h : fs.Pairwise fun f g => f.le g = true) : (dedupAdjacent fs).filter p = dedupAdjacent (fs.filter p) := by
  fun_induction dedupAdjacent fs with
  | case1 => rw [List.filter_nil, dedupAdjacent]
  | case2 f =>
    by_cases hf : p f = true
    · rw [List.filter_cons_of_pos hf, List.filter_nil, dedupAdjacent]
    · rw [List.filter_cons_of_neg hf, List.filter_nil, dedupAdjacent]
  | case3 f g rest hsame ih =>
    have hpg : p f = p g := hp f g hsame
    rw [ih (h.sublist ((List.sublist_cons_self g rest).cons_cons f))]
    by_cases hf : p f = true
    · rw [List.filter_cons_of_pos hf, List.filter_cons_of_pos hf, List.filter_cons_of_pos (hpg ▸ hf), dedupAdjacent,
        if_pos hsame]
    · rw [List.filter_cons_of_neg hf, List.filter_cons_of_neg hf, List.filter_cons_of_neg (hpg ▸ hf)]
  | case4 f g rest hsame ih =>
    obtain ⟨hf, hrest⟩ := List.pairwise_cons.1 h
    -- What follows `f` is later than `f`, for it is no earlier than `g`.
    have hlater : ∀ k ∈ (g :: rest).filter p, f.same k = false := by
      intro k hk
      rw [← Bool.not_eq_true]
      intro hfk
      refine hsame (same_iff.2 ?_)
      have hfg := le_iff.1 (hf g List.mem_cons_self)
      have hgk : (g.compare k).isLE = true := by
        rcases List.mem_cons.1 (List.mem_filter.1 hk).1 with heq | hk
        · have hself : g.compare g = .eq := ReflCmp.compare_self
          rw [heq, hself]
          rfl
        · exact le_iff.1 ((List.pairwise_cons.1 hrest).1 k hk)
      have hgf : (g.compare f).isLE = true := by
        rwa [TransCmp.congr_right (same_iff.1 hfk)]
      exact OrientedCmp.isLE_antisymm hfg hgf
    rw [List.filter_cons]
    split
    · next hf => rw [ih hrest, List.filter_cons_of_pos hf, dedupAdjacent_cons hlater]
    · next hf => rw [ih hrest, List.filter_cons_of_neg hf]

/-- A part that does not tell the same findings apart may be taken before merging. -/
theorem filter_mergeFindings (hp : ∀ f g, f.same g = true → p f = p g) (lists : List (List Finding)) :
    (mergeFindings lists).filter p = mergeFindings [lists.flatten.filter p] := by
  have hsingle : [lists.flatten.filter p].flatten = lists.flatten.filter p := by simp
  rw [mergeFindings, mergeFindings, hsingle, filter_dedupAdjacent hp (pairwise_sorted lists.flatten), filter_sorted]

end Parts

end LintHub
