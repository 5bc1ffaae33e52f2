import LintHub.Proofs.Report.Clean
import LintHub.Proofs.Report.Decoration
import Mathlib.Data.List.TakeWhile
import Mathlib.Logic.Relation

/-!
# What cleaning strikes out

What a pass of `Report.cleanChars` takes out joins the text at both sides, and so may make a decoration that no later
pass looks for.

* `Removable` : what the passes look for. `Cuts` : one removal.
* `Marked` : a text with marks for the characters that are kept. `struck` : the marks that cleaning leaves.
* `not_removable_of_kept` : no decoration is kept whole, unless it did not stand in the text as such.
* `clean_clean_iff` : cleaning again changes nothing exactly if there is nothing to remove.
-/

namespace LintHub.Report

/-- What cleaning takes out: an escape, the escape character with one character more, or a colour. -/
inductive Removable : List Char → Prop
  | escape {body : List Char} (h : IsEscape body) : Removable (Report.escape :: body)
  | pair {c : Char} (hc : within 0x40 0x5F c = true) : Removable [Report.escape, c]
  | colour {colour : String} (h : colour ∈ colours) : Removable colour.toList

/-- The second text is the first without something removable. -/
def Cuts (s t : List Char) : Prop := ∃ a part b, Removable part ∧ s = a ++ (part ++ b) ∧ t = a ++ b

/-! ## What a pass finds -/

theorem exists_of_controlLength? {s : List Char} {n : Nat} (h : controlLength? s = some n) :
    ∃ body rest, s = body ++ rest ∧ body.length = n ∧ IsEscape body := by
  unfold controlLength? at h
  split at h
  · next s =>
    dsimp only at h
    split at h
    · next final rest hrest =>
      split at h
      · next hfinal =>
        refine ⟨'[' :: (s.takeWhile (within 0x30 0x3F) ++
            ((s.dropWhile (within 0x30 0x3F)).takeWhile (within 0x20 0x2F) ++ [final])), rest, ?_, ?_, ?_⟩
        · rw [List.cons_append, List.append_assoc, List.append_assoc, List.singleton_append, ← hrest,
            List.takeWhile_append_dropWhile, List.takeWhile_append_dropWhile]
        · rw [← Option.some.inj h]
          simp only [List.length_cons, List.length_append, List.length_nil]
          omega
        · exact .control (fun c hc => List.mem_takeWhile_imp hc) (fun c hc => List.mem_takeWhile_imp hc) hfinal
      · cases h
    · cases h
  · cases h

theorem exists_of_commandLength? {s : List Char} {n : Nat} (h : commandLength? s = some n) :
    ∃ body rest, s = body ++ rest ∧ body.length = n ∧ IsEscape body := by
  unfold commandLength? at h
  split at h
  · next s =>
    have hsplit : s = s.takeWhile isCommandText ++ s.dropWhile isCommandText :=
      List.takeWhile_append_dropWhile.symm
    have htext : ∀ c ∈ s.takeWhile isCommandText, isCommandText c = true := fun c hc => List.mem_takeWhile_imp hc
    dsimp only at h
    split at h
    · next rest hrest =>
      refine ⟨']' :: (s.takeWhile isCommandText ++ ['\x07']), rest, ?_, ?_, .bell htext⟩
      · conv_lhs => rw [hsplit, hrest]
        simp
      · rw [← Option.some.inj h]
        simp
    · next rest hrest =>
      refine ⟨']' :: (s.takeWhile isCommandText ++ ['\x1b', '\\']), rest, ?_, ?_, .terminator htext⟩
      · conv_lhs => rw [hsplit, hrest]
        simp
      · rw [← Option.some.inj h]
        simp
    · cases h
  · cases h

theorem exists_of_escapeAt? {s : List Char} {n : Nat} (h : escapeAt? s = some n) :
    ∃ part rest, s = part ++ rest ∧ part.length = n + 1 ∧ Removable part := by
  unfold escapeAt? at h
  split at h
  · next c s =>
    split at h
    · next hc =>
      subst hc
      rw [escapeLength?, Option.or_eq_some_iff, Option.or_eq_some_iff] at h
      rcases h with h | ⟨-, h | ⟨-, h⟩⟩
      · obtain ⟨body, rest, rfl, rfl, hbody⟩ := exists_of_controlLength? h
        exact ⟨escape :: body, rest, rfl, rfl, .escape hbody⟩
      · obtain ⟨body, rest, rfl, rfl, hbody⟩ := exists_of_commandLength? h
        exact ⟨escape :: body, rest, rfl, rfl, .escape hbody⟩
      · unfold pairLength? at h
        split at h
        · next d rest =>
          split at h
          · next hd =>
            obtain rfl := Option.some.inj h
            exact ⟨[escape, d], rest, rfl, rfl, .pair hd⟩
          · cases h
        · cases h
    · cases h
  · cases h

/-- What a pass finds is removable. -/
theorem exists_removable {more? : List Char → Option Nat} (hpass : more? ∈ passes) {s : List Char} {n : Nat}
    (h : more? s = some n) : ∃ part rest, s = part ++ rest ∧ part.length = n + 1 ∧ Removable part := by
  rcases List.mem_cons.1 hpass with rfl | hpass
  · exact exists_of_escapeAt? h
  · obtain ⟨colour, hcolour, rfl⟩ := List.mem_map.1 hpass
    rw [partAt?] at h
    split at h
    · next hprefix =>
      obtain ⟨rest, rfl⟩ := List.isPrefixOf_iff_prefix.1 hprefix
      obtain ⟨body, hbody, -⟩ := exists_body_of_mem_colours hcolour
      refine ⟨colour.toList, rest, rfl, ?_, .colour hcolour⟩
      rw [← Option.some.inj h, hbody, List.length_cons, Nat.add_sub_cancel]
    · cases h

/-- Everything that is removable is found by a pass, whatever follows it. -/
theorem exists_pass {part : List Char} (h : Removable part) :
    ∃ more? ∈ passes, ∀ rest, ∃ n, more? (part ++ rest) = some n := by
  cases h with
  | @escape body hbody =>
    refine ⟨escapeAt?, List.mem_cons_self, fun rest => ⟨body.length, ?_⟩⟩
    rw [List.cons_append, escapeAt?, if_pos rfl, hbody.escapeLength?]
  | @pair c hc =>
    refine ⟨escapeAt?, List.mem_cons_self, fun rest => Option.isSome_iff_exists.1 ?_⟩
    have hpair : pairLength? (c :: rest) = some 1 := by rw [pairLength?, if_pos hc]
    simp only [List.cons_append, List.nil_append, escapeAt?, if_true, escapeLength?, hpair, Option.isSome_or,
      Option.isSome_some, Bool.or_true]
  | @colour colour hcolour =>
    refine ⟨partAt? colour.toList, List.mem_cons_of_mem _ (List.mem_map.2 ⟨colour, hcolour, rfl⟩),
      fun rest => ⟨colour.toList.length - 1, ?_⟩⟩
    rw [partAt?, if_pos (List.isPrefixOf_iff_prefix.2 (List.prefix_append _ rest))]

theorem Removable.ne_nil {part : List Char} (h : Removable part) : part ≠ [] := by
  cases h with
  | escape => exact List.cons_ne_nil _ _
  | pair => exact List.cons_ne_nil _ _
  | colour hcolour =>
    obtain ⟨body, hbody, -⟩ := exists_body_of_mem_colours hcolour
    rw [hbody]
    exact List.cons_ne_nil _ _

/-! ## Removals -/

/-- A pass removes one thing after another. -/
theorem reflTransGen_dropFrom {more? : List Char → Option Nat} (hpass : more? ∈ passes) (skip : Nat)
    (a s : List Char) : Relation.ReflTransGen Cuts (a ++ s.drop skip) (a ++ dropFrom more? skip s) := by
  induction s generalizing skip a with
  | nil =>
    rw [List.drop_nil]
    exact .refl
  | cons c s ih =>
    cases skip with
    | succ skip => exact ih skip a
    | zero =>
      rw [dropFrom]
      split
      · next n hfound =>
        obtain ⟨part, rest, hs, hn, hpart⟩ := exists_removable hpass hfound
        have hrest : s.drop n = rest := by rw [← List.drop_succ_cons (a := c), hs, ← hn, List.drop_left]
        have hcut : Cuts (a ++ c :: s) (a ++ s.drop n) := ⟨a, part, rest, hpart, by rw [hs], by rw [hrest]⟩
        exact .head hcut (ih n a)
      · have hlater := ih 0 (a ++ [c])
        rwa [List.append_assoc, List.append_assoc] at hlater

theorem reflTransGen_foldl {todo : List (List Char → Option Nat)} (htodo : ∀ more? ∈ todo, more? ∈ passes)
    (s : List Char) : Relation.ReflTransGen Cuts s (todo.foldl (fun t more? => dropFrom more? 0 t) s) := by
  induction todo generalizing s with
  | nil => exact .refl
  | cons more? todo ih =>
    obtain ⟨hpass, htodo⟩ := List.forall_mem_cons.1 htodo
    exact (reflTransGen_dropFrom hpass 0 [] s).trans (ih htodo _)

/-- Cleaning removes one thing after another, and nothing else. -/
theorem reflTransGen_cleanChars (s : List Char) : Relation.ReflTransGen Cuts s (cleanChars s) := by
  rw [cleanChars_eq]
  exact reflTransGen_foldl (fun _ h => h) s

/-- A text is clean exactly if there is nothing to remove. -/
theorem cleanChars_eq_self_iff_removable {s : List Char} :
    cleanChars s = s ↔ ∀ part, Removable part → ¬ part <:+: s := by
  rw [cleanChars_eq_self_iff]
  constructor
  · rintro h part hpart ⟨a, b, hab⟩
    obtain ⟨more?, hpass, hfound⟩ := exists_pass hpart
    obtain ⟨n, hn⟩ := hfound b
    have hnone := h more? hpass a (part ++ b) (by rw [← hab, List.append_assoc]) (by simp [hpart.ne_nil])
    rw [hnone] at hn
    cases hn
  · intro h more? hpass a b hab _
    by_contra hfound
    obtain ⟨n, hn⟩ := Option.ne_none_iff_exists'.1 hfound
    obtain ⟨part, rest, rfl, -, hpart⟩ := exists_removable hpass hn
    exact h part hpart ⟨a, rest, by rw [hab, List.append_assoc]⟩

/-! ## Marks -/

/-- A text with a mark for each character: whether it is kept. -/
abbrev Marked := List (Char × Bool)

/-- The characters that are kept. -/
def kept (m : Marked) : List Char := (m.filter Prod.snd).map Prod.fst

/-- Strikes out what `more?` finds among the characters that are kept; `skip` of them are still to strike out. -/
def strikeFrom (more? : List Char → Option Nat) : Nat → Marked → Marked
  | _, [] => []
  | skip, (c, false) :: rest => (c, false) :: strikeFrom more? skip rest
  | skip + 1, (c, true) :: rest => (c, false) :: strikeFrom more? skip rest
  | 0, (c, true) :: rest =>
    match more? (c :: kept rest) with
    | some n => (c, false) :: strikeFrom more? n rest
    | none => (c, true) :: strikeFrom more? 0 rest

/-- The text with the marks that cleaning leaves. -/
def struck (s : List Char) : Marked :=
  passes.foldl (fun m more? => strikeFrom more? 0 m) (s.map fun c => (c, true))

theorem kept_strikeFrom (more? : List Char → Option Nat) (skip : Nat) (m : Marked) :
    kept (strikeFrom more? skip m) = dropFrom more? skip (kept m) := by
  induction m generalizing skip with
  | nil => cases skip <;> rfl
  | cons x m ih =>
    obtain ⟨c, mark⟩ := x
    cases mark with
    | false =>
      rw [strikeFrom]
      exact ih skip
    | true =>
      cases skip with
      | succ skip => exact ih skip
      | zero =>
        rw [strikeFrom, show kept ((c, true) :: m) = c :: kept m from rfl, dropFrom]
        cases more? (c :: kept m) with
        | some n => exact ih n
        | none => exact congrArg (c :: ·) (ih 0)

/-- A pass changes the mark of a character, and goes on. -/
theorem strikeFrom_cons (more? : List Char → Option Nat) (skip : Nat) (x : Char × Bool) (m : Marked) :
    ∃ mark skip', strikeFrom more? skip (x :: m) = (x.1, mark) :: strikeFrom more? skip' m := by
  obtain ⟨c, mark⟩ := x
  cases mark with
  | false => exact ⟨false, skip, by rw [strikeFrom]⟩
  | true =>
    cases skip with
    | succ skip => exact ⟨false, skip, rfl⟩
    | zero =>
      rw [strikeFrom]
      cases more? (c :: kept m) with
      | some n => exact ⟨false, n, rfl⟩
      | none => exact ⟨true, 0, rfl⟩

theorem map_fst_strikeFrom (more? : List Char → Option Nat) (skip : Nat) (m : Marked) :
    (strikeFrom more? skip m).map Prod.fst = m.map Prod.fst := by
  induction m generalizing skip with
  | nil => rw [strikeFrom]
  | cons x m ih =>
    obtain ⟨mark, next, hstrike⟩ := strikeFrom_cons more? skip x m
    rw [hstrike, List.map_cons, List.map_cons, ih]

theorem kept_append (m n : Marked) : kept (m ++ n) = kept m ++ kept n := by
  rw [kept, List.filter_append, List.map_append]
  rfl

theorem kept_of_forall {run : Marked} (h : ∀ x ∈ run, x.2 = true) : kept run = run.map Prod.fst := by
  rw [kept, List.filter_eq_self.2 h]

section Runs

variable {more? : List Char → Option Nat} {skip : Nat} {m run : Marked}

/-- What is still kept after a pass was kept before. -/
theorem prefix_of_prefix_strikeFrom (hkept : ∀ x ∈ run, x.2 = true) (h : run <+: strikeFrom more? skip m) :
    run <+: m := by
  cases run with
  | nil => exact List.nil_prefix
  | cons x run =>
    obtain ⟨hx, hrun⟩ := List.forall_mem_cons.1 hkept
    fun_induction strikeFrom more? skip m generalizing x run with
    | case1 => exact h
    | case5 c rest _ ih =>
      obtain ⟨rfl, htail⟩ := List.cons_prefix_cons.1 h
      refine List.cons_prefix_cons.2 ⟨rfl, ?_⟩
      cases run with
      | nil => exact List.nil_prefix
      | cons y run =>
        obtain ⟨hy, hrun'⟩ := List.forall_mem_cons.1 hrun
        exact ih y run hrun htail hy hrun'
    -- In the other cases, the first character is struck out.
    | _ =>
      obtain ⟨rfl, -⟩ := List.cons_prefix_cons.1 h
      cases hx

/-- A pass goes on after what is kept at the start only if it did not find it. -/
theorem exists_not_found (hkept : ∀ x ∈ run, x.2 = true) (hne : run ≠ []) (h : run <+: strikeFrom more? skip m) :
    ∃ rest, more? (run.map Prod.fst ++ rest) = none := by
  obtain ⟨x, run, rfl⟩ := List.exists_cons_of_ne_nil hne
  obtain ⟨hx, hrun⟩ := List.forall_mem_cons.1 hkept
  revert h
  fun_cases strikeFrom more? skip m with
  | case1 => simp
  | case5 c rest hnone =>
    intro h
    obtain ⟨rfl, htail⟩ := List.cons_prefix_cons.1 h
    obtain ⟨after, rfl⟩ := prefix_of_prefix_strikeFrom hrun htail
    rw [kept_append, kept_of_forall hrun] at hnone
    exact ⟨kept after, hnone⟩
  | _ =>
    intro h
    obtain ⟨rfl, -⟩ := List.cons_prefix_cons.1 h
    cases hx

theorem infix_of_infix_strikeFrom (hkept : ∀ x ∈ run, x.2 = true) (h : run <:+: strikeFrom more? skip m) :
    run <:+: m := by
  induction m generalizing skip with
  | nil => rwa [strikeFrom] at h
  | cons x m ih =>
    obtain ⟨mark, next, hstrike⟩ := strikeFrom_cons more? skip x m
    rcases List.infix_cons_iff.1 (hstrike ▸ h) with hstart | hlater
    · exact (prefix_of_prefix_strikeFrom hkept (hstrike ▸ hstart)).isInfix
    · exact (ih hlater).trans (List.suffix_cons x m).isInfix

theorem exists_not_found_of_part (hkept : ∀ x ∈ run, x.2 = true) (hne : run ≠ [])
    (h : run <:+: strikeFrom more? skip m) : ∃ rest, more? (run.map Prod.fst ++ rest) = none := by
  induction m generalizing skip with
  | nil =>
    rw [strikeFrom, List.infix_nil] at h
    exact absurd h hne
  | cons x m ih =>
    obtain ⟨mark, next, hstrike⟩ := strikeFrom_cons more? skip x m
    rcases List.infix_cons_iff.1 (hstrike ▸ h) with hstart | hlater
    · exact exists_not_found hkept hne (hstrike ▸ hstart)
    · exact ih hlater

/-- What is kept after several passes was found by none of them. -/
theorem exists_not_found_of_foldl {todo : List (List Char → Option Nat)} (hkept : ∀ x ∈ run, x.2 = true)
    (hne : run ≠ []) (h : run <:+: todo.foldl (fun m more? => strikeFrom more? 0 m) m) :
    run <:+: m ∧ ∀ more? ∈ todo, ∃ rest, more? (run.map Prod.fst ++ rest) = none := by
  induction todo generalizing m with
  | nil => exact ⟨h, by simp⟩
  | cons more? todo ih =>
    obtain ⟨hrun, htodo⟩ := ih h
    exact ⟨infix_of_infix_strikeFrom hkept hrun,
      List.forall_mem_cons.2 ⟨exists_not_found_of_part hkept hne hrun, htodo⟩⟩

end Runs

/-! ## What cleaning leaves -/

theorem kept_struck (s : List Char) : kept (struck s) = cleanChars s := by
  have hpasses (todo : List (List Char → Option Nat)) (m : Marked) :
      kept (todo.foldl (fun m more? => strikeFrom more? 0 m) m) =
        todo.foldl (fun t more? => dropFrom more? 0 t) (kept m) := by
    induction todo generalizing m with
    | nil => rfl
    | cons more? todo ih => rw [List.foldl_cons, List.foldl_cons, ih, kept_strikeFrom]
  have hall : kept (s.map fun c => (c, true)) = s := by
    rw [kept_of_forall (by simp), List.map_map]
    exact List.map_id s
  rw [struck, hpasses, hall, cleanChars_eq]

theorem map_fst_struck (s : List Char) : (struck s).map Prod.fst = s := by
  have hpasses (todo : List (List Char → Option Nat)) (m : Marked) :
      (todo.foldl (fun m more? => strikeFrom more? 0 m) m).map Prod.fst = m.map Prod.fst := by
    induction todo generalizing m with
    | nil => rfl
    | cons more? todo ih => rw [List.foldl_cons, ih, map_fst_strikeFrom]
  rw [struck, hpasses, List.map_map]
  exact List.map_id s

/-- Nothing removable that stands in a text is kept whole. -/
theorem not_removable_of_kept {s : List Char} {run : Marked} (h : run <:+: struck s) (hkept : ∀ x ∈ run, x.2 = true) :
    ¬ Removable (run.map Prod.fst) := by
  intro hremovable
  have hne : run ≠ [] := fun hnil => hremovable.ne_nil (by rw [hnil, List.map_nil])
  obtain ⟨more?, hpass, hfound⟩ := exists_pass hremovable
  obtain ⟨rest, hnone⟩ := (exists_not_found_of_foldl hkept hne h).2 more? hpass
  obtain ⟨n, hn⟩ := hfound rest
  rw [hn] at hnone
  cases hnone

theorem clean_clean_iff {text : String} :
    clean (clean text) = clean text ↔ ∀ part, Removable part → ¬ part <:+: (clean text).toList := by
  rw [← cleanChars_eq_self_iff_removable, ← String.toList_inj, clean, String.toList_ofList]

/-- Cleaning takes out escapes and colours, one after another, and nothing else, and of those that stand in the text
none is kept whole. What is left has an escape or a colour only where others were taken out between its characters, and
cleaning again changes nothing exactly if it has none. -/
theorem clean_leaves_only_joined (text : String) :
    (Relation.ReflTransGen Cuts text.toList (clean text).toList ∧
      (struck text.toList).map Prod.fst = text.toList ∧ kept (struck text.toList) = (clean text).toList) ∧
    (∀ run, run <:+: struck text.toList → (∀ x ∈ run, x.2 = true) → ¬ Removable (run.map Prod.fst)) ∧
    (clean (clean text) = clean text ↔ ∀ part, Removable part → ¬ part <:+: (clean text).toList) := by
  have hclean : (clean text).toList = cleanChars text.toList := String.toList_ofList
  refine ⟨⟨?_, map_fst_struck text.toList, ?_⟩, fun run hrun hkept => not_removable_of_kept hrun hkept, clean_clean_iff⟩
  · rw [hclean]
    exact reflTransGen_cleanChars text.toList
  · rw [hclean]
    exact kept_struck text.toList

/-- A reset inside of a reset: the characters around it are kept, and are a reset when it is gone. -/
theorem clean_leaves_only_joined_nested :
    kept (struck "a[0[0mm".toList) = "a[0m".toList ∧
      [('a', true), ('[', true), ('0', true)] <:+: struck "a[0[0mm".toList ∧ ¬ Removable "a[0".toList ∧
      clean (clean "a[0[0mm") ≠ clean "a[0[0mm" := by
  have hstruck : struck "a[0[0mm".toList =
      [('a', true), ('[', true), ('0', true), ('[', false), ('0', false), ('m', false), ('m', true)] := by
    decide +kernel
  have hclean : clean "a[0[0mm" = "a[0m" := by decide +kernel
  have hrun : [('a', true), ('[', true), ('0', true)] <:+: struck "a[0[0mm".toList := by
    rw [hstruck]
    exact (List.prefix_append [('a', true), ('[', true), ('0', true)] _).isInfix
  have hreset : Removable "[0m".toList := .colour (by decide)
  obtain ⟨⟨-, -, hkept⟩, hruns, hagain⟩ := clean_leaves_only_joined "a[0[0mm"
  refine ⟨by rw [hkept, hclean], hrun, hruns _ hrun (by simp), fun hsame => hagain.1 hsame _ hreset ?_⟩
  rw [hclean]
  exact (List.suffix_cons 'a' "[0m".toList).isInfix

/-- What is left may be a colour, or a control sequence with the escape character that stood before an escape. -/
theorem clean_leaves_removable :
    (clean "[0[0mm" = "[0m" ∧ Removable "[0m".toList ∧ clean (clean "[0[0mm") = "") ∧
      clean "\x1b\x1bM[5mx" = "\x1b[5mx" ∧ Removable "\x1b[5m".toList ∧ clean (clean "\x1b\x1bM[5mx") = "x" := by
  have hblink : IsEscape ['[', '5', 'm'] :=
    @IsEscape.control ['5'] [] 'm' (List.all_eq_true.1 rfl) (List.all_eq_true.1 rfl) rfl
  exact ⟨⟨by decide +kernel, .colour (by decide), by decide +kernel⟩, by decide +kernel, .escape hblink,
    by decide +kernel⟩

end LintHub.Report
