import LintHub.Text.Search

/-!
# Reading heads of texts

* `span_append` : a run ends where the first other character stands. `span_of_head?` says when what follows it can be
  put in the place of something else.
* `run?_append` : a run of at least one character. `run?_eq_some` says what a run is.
* `eq_of_append_cons_eq` : a text is cut in one way only at its first other character, and so, by
  `eq_of_append_notMem`, at a character's first place.
* `occurs_of_infix` : what stands inside of a text is found, `dropEnd?_eq_some_iff` : what stands at its end is cut off.
* `shortestHead_append` : the shortest head is found if the rest is accepted after no shorter one, and
  `shortestHead_eq_none` says when there is none. `next_of_shortestHead` : after a head, the rest is accepted.
-/

namespace LintHub.Text

theorem span_append {ok : Char → Bool} {head rest : List Char} (hok : ∀ c ∈ head, ok c = true)
    (hstop : ∀ c ∈ rest.head?, ok c = false) :
    (head ++ rest).takeWhile ok = head ∧ (head ++ rest).dropWhile ok = rest := by
  rw [List.takeWhile_append_of_pos hok, List.dropWhile_append_of_pos hok]
  cases rest with
  | nil => simp
  | cons c rest => simp [hstop c rfl]

theorem span_append_cons {ok : Char → Bool} {head : List Char} {c : Char} (hok : ∀ x ∈ head, ok x = true)
    (hc : ok c = false) (rest : List Char) :
    (head ++ c :: rest).takeWhile ok = head ∧ (head ++ c :: rest).dropWhile ok = c :: rest :=
  span_append hok (by simpa using hc)

/-- A run is as long, whatever follows it, if that starts as what follows it here. -/
theorem span_of_head? {ok : Char → Bool} {s head rest t : List Char}
    (h : s.takeWhile ok = head ∧ s.dropWhile ok = rest) (ht : t.head? = rest.head?) :
    (head ++ t).takeWhile ok = head ∧ (head ++ t).dropWhile ok = t := by
  obtain ⟨rfl, rfl⟩ := h
  refine span_append (List.all_eq_true.1 List.all_takeWhile) fun c hc => ?_
  have hfirst := List.head?_dropWhile_not ok s
  rw [← ht, hc] at hfirst
  exact hfirst

theorem run?_append {ok : Char → Bool} {head rest : List Char} (hne : head ≠ []) (hok : ∀ c ∈ head, ok c = true)
    (hstop : ∀ c ∈ rest.head?, ok c = false) : run? ok (head ++ rest) = some (head, rest) := by
  obtain ⟨htake, hdrop⟩ := span_append hok hstop
  rw [run?, htake, hdrop]
  cases head with
  | nil => exact absurd rfl hne
  | cons c head => rfl

theorem run?_self {ok : Char → Bool} {s : List Char} (hne : s ≠ []) (hok : ∀ c ∈ s, ok c = true) :
    run? ok s = some (s, []) := by
  have hrun : run? ok (s ++ []) = some (s, []) := run?_append hne hok (by simp)
  rwa [List.append_nil] at hrun

theorem run?_eq_some {ok : Char → Bool} {s head rest : List Char} (h : run? ok s = some (head, rest)) :
    s = head ++ rest ∧ head ≠ [] ∧ ∀ c ∈ head, ok c = true := by
  rw [run?] at h
  split at h
  · cases h
  · next hne =>
    obtain ⟨rfl, rfl⟩ := Prod.mk.inj (Option.some.inj h)
    exact ⟨List.takeWhile_append_dropWhile.symm, hne, List.all_eq_true.1 List.all_takeWhile⟩

/-- Where the first character without `ok` stands is determined by the text. -/
theorem eq_of_append_cons_eq {ok : Char → Bool} {a b s t : List Char} {c d : Char} (ha : ∀ x ∈ a, ok x = true)
    (hb : ∀ x ∈ b, ok x = true) (hc : ok c = false) (hd : ok d = false) (h : a ++ c :: s = b ++ d :: t) :
    a = b ∧ c = d ∧ s = t := by
  have hab : a = b := by rw [← (span_append_cons ha hc s).1, h, (span_append_cons hb hd t).1]
  subst hab
  obtain ⟨hcd, hst⟩ := List.cons.inj (List.append_cancel_left h)
  exact ⟨rfl, hcd, hst⟩

theorem eq_of_append_notMem {a b s t : List Char} {c : Char} (ha : c ∉ a) (hb : c ∉ b)
    (h : a ++ c :: s = b ++ c :: t) : a = b ∧ s = t := by
  have hfree {x : List Char} (hx : c ∉ x) : ∀ d ∈ x, (d != c) = true := fun d hd =>
    bne_iff_ne.2 fun heq => hx (heq ▸ hd)
  have hstop : (c != c) = false := bne_self_eq_false c
  obtain ⟨hab, -, hst⟩ := @eq_of_append_cons_eq (· != c) _ _ _ _ _ _ (hfree ha) (hfree hb) hstop hstop h
  exact ⟨hab, hst⟩

theorem occurs_of_infix {part s : List Char} (h : part <:+: s) : occurs part s = true := by
  induction s with
  | nil => simpa [occurs] using h
  | cons c s ih =>
    rw [occurs, Bool.or_eq_true]
    rcases List.infix_cons_iff.1 h with hstart | hinfix
    · exact .inl (List.isPrefixOf_iff_prefix.2 hstart)
    · exact .inr (ih hinfix)

theorem dropEnd?_eq_some_iff {part s t : List Char} : dropEnd? part s = some t ↔ t ++ part = s := by
  rw [dropEnd?]
  split
  · next h =>
    obtain ⟨u, rfl⟩ := List.isSuffixOf_iff_suffix.1 h
    simp [eq_comm]
  · next h =>
    simp only [reduceCtorEq, false_iff]
    rintro rfl
    exact h (List.isSuffixOf_iff_suffix.2 (List.suffix_append t part))

section Heads

variable {α : Type} {ok : Char → Bool} {next : List Char → Option α}

theorem shortestHead_append {head rest : List Char} {a : α} (hne : head ≠ []) (hok : ∀ c ∈ head, ok c = true)
    (hnext : next rest = some a) (hearlier : ∀ p q, head = p ++ q → p ≠ [] → q ≠ [] → next (q ++ rest) = none) :
    shortestHead ok next (head ++ rest) = some (head, a) := by
  induction head with
  | nil => exact absurd rfl hne
  | cons c head ih =>
    rw [List.cons_append, shortestHead, if_pos (hok c (by simp))]
    by_cases hhead : head = []
    · simp [hhead, hnext]
    · have hlater : ∀ p q, head = p ++ q → p ≠ [] → q ≠ [] → next (q ++ rest) = none := fun p q hpq _ hq =>
        hearlier (c :: p) q (by rw [hpq, List.cons_append]) (by simp) hq
      rw [hearlier [c] head rfl (by simp) hhead, ih hhead (fun d hd => hok d (by simp [hd])) hlater]
      rfl

theorem shortestHead_eq_none {s : List Char}
    (h : ∀ p q, s = p ++ q → p ≠ [] → (∀ c ∈ p, ok c = true) → next q = none) : shortestHead ok next s = none := by
  induction s with
  | nil => rfl
  | cons c s ih =>
    rw [shortestHead]
    split
    · next hc =>
      have hlater : ∀ p q, s = p ++ q → p ≠ [] → (∀ d ∈ p, ok d = true) → next q = none := fun p q hpq _ hp =>
        h (c :: p) q (by rw [hpq, List.cons_append]) (by simp) (List.forall_mem_cons.2 ⟨hc, hp⟩)
      rw [h [c] s rfl (by simp) (by simpa using hc), ih hlater]
      rfl
    · rfl

theorem next_of_shortestHead {s head : List Char} {a : α} (h : shortestHead ok next s = some (head, a)) :
    ∃ rest, s = head ++ rest ∧ next rest = some a := by
  induction s generalizing head with
  | nil => cases h
  | cons c s ih =>
    rw [shortestHead] at h
    split at h
    · split at h
      · next b hb =>
        obtain ⟨rfl, rfl⟩ := Prod.mk.inj (Option.some.inj h)
        exact ⟨s, rfl, hb⟩
      · obtain ⟨⟨p, b⟩, hp, heq⟩ := Option.map_eq_some_iff.1 h
        obtain ⟨rfl, rfl⟩ := Prod.mk.inj heq
        obtain ⟨rest, rfl, hrest⟩ := ih hp
        exact ⟨rest, rfl, hrest⟩
    · cases h

end Heads

end LintHub.Text
