import LintHub.Proofs.Checking.Accepted
import LintHub.Proofs.Disk.Names
import LintHub.Proofs.Text.Search

/-!
# What the settings' hash tells apart

The hash under which results are stored names the settings and the text of the ignore file. An ignore file that is no
text is named like none.

* `ne_of_mem_contentHash` : a digest holds no line feed and no brace.
* `Checker.nameTexts` : the texts whose digests name a checker's settings.
* `Checker.settingsHash_eq_iff_text` : the hash tells apart settings and what the ignore file says as a text.
* `Checker.settingsHash_eq_iff` : which settings and ignore files have one hash.
-/

namespace LintHub

/-! ## Texts that are digested -/

/-- A digest is written with digits of base sixteen. -/
theorem ne_of_mem_contentHash {s : String} {c : Char} (h : c ∈ (contentHash s).toList) : c ≠ '\n' ∧ c ≠ '{' := by
  have hdigit {n : Nat} (hn : n < 16) : Text.hexDigit n ≠ '\n' ∧ Text.hexDigit n ≠ '{' :=
    (by decide : ∀ m : Fin 16, Text.hexDigit m ≠ '\n' ∧ Text.hexDigit m ≠ '{') ⟨n, hn⟩
  rw [contentHash, Blake3.hex, String.toList_ofList] at h
  obtain ⟨w, -, hw⟩ := List.mem_flatMap.1 h
  obtain ⟨i, -, hi⟩ := List.mem_flatMap.1 hw
  simp only [List.mem_cons, List.not_mem_nil, or_false] at hi
  rcases hi with rfl | rfl
  · exact hdigit (by omega)
  · exact hdigit (by omega)

namespace Settings

theorem head?_compact (s : Settings) : s.toJson.compact.toList.head? = some '{' := by
  rw [Json.compact, String.toList_ofList]
  rfl

/-- A digest and a text after it are not the text of settings. -/
theorem compact_ne_append (s s' : Settings) (ignored : String) :
    s.toJson.compact ≠ s'.fingerprint ++ "\n" ++ ignored := by
  intro h
  have hhead := head?_compact s
  rw [h, String.toList_append, String.toList_append, List.append_assoc] at hhead
  cases hdigest : s'.fingerprint.toList with
  | nil =>
    rw [hdigest] at hhead
    cases hhead
  | cons c rest =>
    rw [hdigest] at hhead
    obtain rfl := Option.some.inj hhead
    exact (ne_of_mem_contentHash (s := s'.toJson.compact) (c := '{') (by rw [← fingerprint, hdigest]; simp)).2 rfl

theorem append_inj {s s' : Settings} {ignored ignored' : String}
    (h : s.fingerprint ++ "\n" ++ ignored = s'.fingerprint ++ "\n" ++ ignored') :
    s.fingerprint = s'.fingerprint ∧ ignored = ignored' := by
  have hfeed (x : Settings) : '\n' ∉ x.fingerprint.toList := fun hmem => (ne_of_mem_contentHash hmem).1 rfl
  have hlist : s.fingerprint.toList ++ '\n' :: ignored.toList = s'.fingerprint.toList ++ '\n' :: ignored'.toList := by
    simpa using congrArg String.toList h
  obtain ⟨hname, htext⟩ := Text.eq_of_append_notMem (hfeed s) (hfeed s') hlist
  exact ⟨String.toList_inj.1 hname, String.toList_inj.1 htext⟩

end Settings

namespace Checker

/-- What the ignore file holds, if it is there and can be read. -/
def ignoredBytes? (c : Checker) (d : Disk) : Option ByteArray := (d.readBytes c.ignorePath).toOption

/-- What the ignore file says, if it is a text. -/
def ignoredText? (c : Checker) (d : Disk) : Option String := (c.ignoredBytes? d).bind Text.decode?

/-- The texts whose digests name a checker's settings. -/
def nameTexts (c : Checker) (d : Disk) : Set String :=
  {text | text = c.settings.toJson.compact ∨
    ∃ ignored, c.ignoredText? d = some ignored ∧ text = c.settings.fingerprint ++ "\n" ++ ignored}

variable {c c' : Checker} {d d' : Disk}

theorem toOption_readText (d : Disk) (p : Path) :
    (d.readText p).toOption = (d.readBytes p).toOption.bind Text.decode? := by
  rw [Disk.readText]
  cases d.readBytes p with
  | error e => rfl
  | ok bytes =>
    dsimp only [Except.toOption, Option.bind_some]
    cases Text.decode? bytes <;> rfl

theorem nameTexts_of_none (h : c.ignoredText? d = none) : c.nameTexts d = {c.settings.toJson.compact} := by
  ext text
  simp [nameTexts, h]

theorem settingsHash_of_none (h : c.ignoredText? d = none) :
    c.settingsHash d = contentHash c.settings.toJson.compact := by
  rw [ignoredText?, ignoredBytes?, ← toOption_readText] at h
  rw [settingsHash]
  cases hread : d.readText c.ignorePath with
  | error e => rfl
  | ok ignored =>
    rw [hread] at h
    cases h

theorem settingsHash_of_some {ignored : String} (h : c.ignoredText? d = some ignored) :
    c.settingsHash d = contentHash (c.settings.fingerprint ++ "\n" ++ ignored) := by
  rw [ignoredText?, ignoredBytes?, ← toOption_readText] at h
  rw [settingsHash]
  cases hread : d.readText c.ignorePath with
  | error e =>
    rw [hread] at h
    cases h
  | ok found =>
    rw [hread] at h
    obtain rfl := Option.some.inj h
    rfl

/-- The hash tells apart settings, and what the ignore file says as a text. -/
theorem settingsHash_eq_iff_text (hc : c.settings.WellFormed) (hc' : c'.settings.WellFormed)
    (hdigest : Set.InjOn contentHash (c.nameTexts d ∪ c'.nameTexts d')) :
    c.settingsHash d = c'.settingsHash d' ↔
      c.settings.Agrees c'.settings ∧ c.ignoredText? d = c'.ignoredText? d' := by
  have hown : c.settings.toJson.compact ∈ c.nameTexts d ∪ c'.nameTexts d' := .inl (.inl rfl)
  have hown' : c'.settings.toJson.compact ∈ c.nameTexts d ∪ c'.nameTexts d' := .inr (.inl rfl)
  have hname : c.settings.fingerprint = c'.settings.fingerprint ↔ c.settings.Agrees c'.settings :=
    Settings.fingerprint_eq_iff hc hc' (hdigest.mono (by rintro x (rfl | rfl) <;> assumption))
  -- If only one ignore file is a text, equal hashes would confuse a text of settings with a digest and what follows it.
  cases hignored : c.ignoredText? d with
  | none =>
    rw [settingsHash_of_none hignored]
    cases hignored' : c'.ignoredText? d' with
    | none =>
      rw [settingsHash_of_none hignored']
      exact ⟨fun h => ⟨hname.1 h, rfl⟩, fun h => hname.2 h.1⟩
    | some ignored' =>
      rw [settingsHash_of_some hignored']
      refine ⟨fun h => ?_, fun h => nomatch h.2⟩
      exact absurd (hdigest hown (.inr (.inr ⟨ignored', hignored', rfl⟩)) h) (Settings.compact_ne_append _ _ _)
  | some ignored =>
    have hjoined : c.settings.fingerprint ++ "\n" ++ ignored ∈ c.nameTexts d ∪ c'.nameTexts d' :=
      .inl (.inr ⟨ignored, hignored, rfl⟩)
    rw [settingsHash_of_some hignored]
    cases hignored' : c'.ignoredText? d' with
    | none =>
      rw [settingsHash_of_none hignored']
      refine ⟨fun h => ?_, fun h => nomatch h.2⟩
      exact absurd (hdigest hown' hjoined h.symm) (Settings.compact_ne_append _ _ _)
    | some ignored' =>
      rw [settingsHash_of_some hignored']
      constructor
      · intro h
        obtain ⟨hfingerprint, rfl⟩ := Settings.append_inj (hdigest hjoined (.inr (.inr ⟨ignored', hignored', rfl⟩)) h)
        exact ⟨hname.1 hfingerprint, rfl⟩
      · rintro ⟨hagrees, htext⟩
        rw [hname.2 hagrees, Option.some.inj htext]

/-! ## States of the ignore file -/

theorem toUTF8_of_decode? {bytes : ByteArray} {text : String} (h : Text.decode? bytes = some text) :
    text.toUTF8 = bytes := by
  rw [Text.decode?, String.fromUTF8?] at h
  split at h
  · obtain rfl := Option.some.inj h
    rfl
  · cases h

/-- The ignore files are the same, or neither is a text. -/
def SameIgnored (c c' : Checker) (d d' : Disk) : Prop :=
  c.ignoredBytes? d = c'.ignoredBytes? d' ∨ (c.ignoredText? d = none ∧ c'.ignoredText? d' = none)

theorem ignoredText?_eq_iff : c.ignoredText? d = c'.ignoredText? d' ↔ SameIgnored c c' d d' := by
  constructor
  · intro h
    cases htext : c.ignoredText? d with
    | none => exact .inr ⟨htext, h.symm.trans htext⟩
    | some text =>
      have htext' := h.symm.trans htext
      obtain ⟨bytes, hbytes, hdecode⟩ := Option.bind_eq_some_iff.1 htext
      obtain ⟨bytes', hbytes', hdecode'⟩ := Option.bind_eq_some_iff.1 htext'
      left
      rw [hbytes, hbytes', ← toUTF8_of_decode? hdecode, ← toUTF8_of_decode? hdecode']
  · rintro (h | ⟨h, h'⟩)
    · rw [ignoredText?, ignoredText?, h]
    · rw [h, h']

/-- Under accepted settings, the hash is the same exactly if the settings are the same up to their directory and the
ignore files hold the same bytes or are both no texts. So an ignore file that is no text is taken for none, and for any
other that is no text: a result that was stored before such an edit holds after it. -/
theorem settingsHash_eq_iff {text text' : String} {s s' : Settings} (h : Settings.parse text = .ok s)
    (h' : Settings.parse text' = .ok s') (hc : c.settings.Agrees s) (hc' : c'.settings.Agrees s')
    (hdigest : Set.InjOn contentHash (c.nameTexts d ∪ c'.nameTexts d')) :
    (c.settingsHash d = c'.settingsHash d' ↔ s = s' ∧ SameIgnored c c' d d') ∧
      ∀ (content : String) (versions : Table String) (findings : List Finding) (time : UInt64),
        CacheEntry.holdsFor ⟨⟨content, c.settingsHash d, versions⟩, findings, time⟩
          ⟨content, c'.settingsHash d', versions⟩ = true ↔ s = s' ∧ SameIgnored c c' d d' := by
  have hwell {x y : Settings} {t : String} (hx : Settings.parse t = .ok x) (hy : y.Agrees x) : y.WellFormed := by
    intro tool
    rw [Settings.tool, hy.tools]
    exact (Settings.wellFormed_of_parse hx).1 tool
  have hagrees : c.settings.Agrees c'.settings ↔ s = s' := by
    refine ⟨fun hboth => ?_, fun heq => hc.trans (heq ▸ hc'.symm)⟩
    exact ((hc.symm.trans hboth).trans hc').eq (Settings.wellFormed_of_parse h).2 (Settings.wellFormed_of_parse h').2
  have hhash : c.settingsHash d = c'.settingsHash d' ↔ s = s' ∧ SameIgnored c c' d d' := by
    rw [settingsHash_eq_iff_text (hwell h hc) (hwell h' hc') hdigest, hagrees, ignoredText?_eq_iff]
  refine ⟨hhash, fun content versions findings time => ?_⟩
  rw [← hhash, CacheEntry.holdsFor, beq_iff_eq]
  constructor
  · exact fun heq => congrArg CacheKey.settingsHash heq
  · intro heq
    rw [heq]

/-- A project without an ignore file. -/
def bareDisk : Disk := ⟨[(["w"], .dir)], ["w"]⟩

/-- The same project with an ignore file of one byte, which is no text. -/
def garbledDisk : Disk := ⟨[(["w"], .dir), (["w", ".ansible-lint-ignore"], .file ⟨#[0xFF]⟩ false)], ["w"]⟩

theorem settingsHash_eq_iff_garbled :
    let c := new Settings.default ⟨"/w"⟩ (.ofDirs []) bareDisk
    c.ignoredBytes? bareDisk = none ∧ c.ignoredBytes? garbledDisk = some ⟨#[0xFF]⟩ ∧
      c.settingsHash bareDisk = c.settingsHash garbledDisk := by
  intro c
  have hplain : Disk.IsPlain c.ignorePath ["w", ".ansible-lint-ignore"] := by decide +kernel
  have hbare : c.ignoredBytes? bareDisk = none := by
    rw [ignoredBytes?, Disk.readBytes, Disk.stat, Disk.find_of_follow? hplain true rfl]
    rfl
  have hgarbled : c.ignoredBytes? garbledDisk = some ⟨#[0xFF]⟩ := by
    rw [ignoredBytes?, Disk.readBytes, Disk.stat_of_follow? hplain rfl]
    rfl
  have hnone : c.ignoredText? bareDisk = none := by rw [ignoredText?, hbare]; rfl
  have hnone' : c.ignoredText? garbledDisk = none := by
    rw [ignoredText?, hgarbled]
    decide +kernel
  have hread : Settings.parse "\x7b\x7d" = .ok Settings.default := Settings.parse_of_toOption (by decide +kernel)
  have hdigest : Set.InjOn contentHash (c.nameTexts bareDisk ∪ c.nameTexts garbledDisk) := by
    rw [nameTexts_of_none hnone, nameTexts_of_none hnone', Set.union_self]
    exact Set.injOn_singleton _ _
  exact ⟨hbare, hgarbled, (settingsHash_eq_iff hread hread (.refl _) (.refl _) hdigest).1.2
    ⟨rfl, .inr ⟨hnone, hnone'⟩⟩⟩

end Checker

end LintHub
