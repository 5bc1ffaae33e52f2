import LintHub.Url.Basic

/-!
# The file that an address names

* `Url.isAbsolute_of_filePath?` : it is absolute, since the path of an address starts with a slash and the decoding of
  what follows leaves it there.
-/

namespace LintHub

namespace Text

/-- No character but the slash leads with its byte. -/
theorem eq_slash_of_utf8EncodeChar {c : Char} {bytes : List UInt8} (h : String.utf8EncodeChar c = 47 :: bytes) :
    c = '/' := by
  have hbyte {n : Nat} {rest : List UInt8} (hn : UInt8.ofNat n :: rest = 47 :: bytes) : n % 256 = 47 := by
    have hnat := congrArg UInt8.toNat (List.cons.inj hn).1
    rwa [UInt8.toNat_ofNat'] at hnat
  unfold String.utf8EncodeChar at h
  dsimp only at h
  -- The longer forms lead with a byte above 127.
  split at h
  · have hlow := hbyte h
    refine Char.ext (UInt32.toNat_inj.1 ?_)
    show c.val.toNat = 47
    omega
  split at h
  · have hlead := hbyte h
    omega
  split at h
  · have hlead := hbyte h
    omega
  · have hlead := hbyte h
    omega

theorem head?_of_decode? {bytes : List UInt8} {s : String} (h : decode? ⟨(47 :: bytes).toArray⟩ = some s) :
    s.toList.head? = some '/' := by
  have hbytes : s.toByteArray = ⟨(47 :: bytes).toArray⟩ := by
    unfold decode? String.fromUTF8? at h
    split at h
    · cases h
      rfl
    · cases h
  have hdata : s.toList.flatMap String.utf8EncodeChar = 47 :: bytes := by
    have hlist := congrArg (fun b => b.data.toList) (String.utf8Encode_toList.trans hbytes)
    simpa [List.utf8Encode, List.data_toByteArray] using hlist
  cases hchars : s.toList with
  | nil =>
    rw [hchars] at hdata
    cases hdata
  | cons c cs =>
    rw [hchars, List.flatMap_cons] at hdata
    cases hlead : String.utf8EncodeChar c with
    | nil => exact absurd hlead String.utf8EncodeChar_ne_nil
    | cons b rest =>
      rw [hlead] at hdata
      obtain rfl : b = 47 := (List.cons.inj hdata).1
      rw [eq_slash_of_utf8EncodeChar hlead]
      rfl

theorem loop_toList (bytes : ByteArray) (i : Nat) (done : List UInt8) :
    ByteArray.toList.loop bytes i done = done.reverse ++ bytes.data.toList.drop i := by
  induction i, done using ByteArray.toList.loop.induct bytes with
  | case1 i done hlt ih =>
    have hi : i < bytes.data.toList.length := by simpa using hlt
    have hget : bytes.get! i = bytes.data.toList[i] := by
      rw [Array.getElem_toList]
      exact getElem!_pos bytes.data i (by simpa using hlt)
    rw [ByteArray.toList.loop, if_pos hlt, ih, List.drop_eq_getElem_cons hi, hget, List.reverse_cons, List.append_assoc]
    rfl
  | case2 i done hge =>
    have hend : bytes.data.toList.length ≤ i := by simpa using hge
    rw [ByteArray.toList.loop, if_neg hge, List.drop_eq_nil_of_le hend, List.append_nil]

/-- A text whose first byte is a slash starts with one, even where the other bytes are no text. -/
theorem head?_decodeLossy (bytes : List UInt8) :
    (decodeLossy ⟨(47 :: bytes).toArray⟩).toList.head? = some '/' := by
  unfold decodeLossy
  split
  · next s h => exact head?_of_decode? h
  · rw [ByteArray.toList, loop_toList, String.toList_ofList]
    show (decodeChars (47 :: bytes)).head? = some '/'
    rw [decodeChars]
    rfl

end Text

namespace Url

theorem head?_slashed {ss : List String} (h : ss ≠ []) : (slashed ss).toList.head? = some '/' := by
  obtain ⟨s, rest, rfl⟩ := List.exists_cons_of_ne_nil h
  simp [slashed]

theorem head?_decode {cs : List Char} (h : cs.head? = some '/') : (decode cs).toList.head? = some '/' := by
  obtain ⟨rest, rfl⟩ := List.head?_eq_some_iff.1 h
  have hbytes : decodeBytes ('/' :: rest) = 47 :: decodeBytes rest := by
    rw [decodeBytes]
    · rw [ByteArray.toList, Text.loop_toList]
      rfl
    · intro a b more hpercent
      cases hpercent
  rw [decode, hbytes]
  exact Text.head?_decodeLossy _

theorem isAbsolute_of_filePath? {u : Url} {p : Path} (h : u.filePath? = some p) : p.isAbsolute = true := by
  have hpath {ss : List String} (hss : ss ≠ []) : (filePath?.pathOf ss).isAbsolute = true := by
    have hhead := head?_decode (head?_slashed hss)
    unfold filePath?.pathOf Path.isAbsolute
    dsimp only
    split
    · rw [String.toList_append, List.head?_append, hhead]
      rfl
    · rw [hhead]
      rfl
  unfold filePath? at h
  split at h
  · cases h
  · next ss _ =>
    split at h
    · cases h
    · next hne =>
      have hss : ss ≠ [] := by simpa using hne
      split at h
      · cases h
        exact hpath hss
      · cases h
        exact hpath hss
      · cases h

end Url

end LintHub
