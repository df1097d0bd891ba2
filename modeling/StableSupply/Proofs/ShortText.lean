import StableSupply.Proofs.Bytes
import StableSupply.Proofs.Word

/-! # Short texts

A word has room for 32 bytes of text. The bytes are right-aligned and the zeros in front of them are
taken for padding, so a text is read back without the NUL characters that it begins with
(`Word.toShortText_ofShortText`), and nothing else is lost: `Word.shortText_exact` says which texts
share a word, and that every word that is read as a text is the word of that text. -/

namespace StableSupply

namespace Bytes

theorem dropWhile_replicate_append (n : Nat) (bytes : Bytes) :
    (List.replicate n 0 ++ bytes).dropWhile (· = 0) = bytes.dropWhile (· = 0) := by
  induction n with
  | zero => rfl
  | succ n ih =>
    rw [List.replicate_succ, List.cons_append, List.dropWhile_cons_of_pos (by decide), ih]

/-- Zeros in front of a number do not change it. -/
theorem toNat_dropWhile (bytes : Bytes) : toNat (bytes.dropWhile (· = 0)) = toNat bytes := by
  induction bytes with
  | nil => rfl
  | cons byte rest ih =>
    by_cases hzero : byte = 0
    · subst hzero
      rw [List.dropWhile_cons_of_pos (by decide), ih, toNat_zero_cons]
    · rw [List.dropWhile_cons_of_neg (by simpa using hzero)]

end Bytes

/-! ## Texts without the NULs that they begin with -/

/-- The character that encodes as a zero. -/
def nul : Char := Char.ofNat 0

/-- The bytes of any other character begin with one that is not zero. -/
theorem utf8EncodeChar_nul_or (c : Char) :
    c = nul ∧ String.utf8EncodeChar c = [0] ∨
      c ≠ nul ∧ ∃ byte rest, byte ≠ 0 ∧ String.utf8EncodeChar c = byte :: rest := by
  by_cases hc : c = nul
  · subst hc
    exact .inl ⟨rfl, rfl⟩
  refine .inr ⟨hc, ?_⟩
  rcases utf8EncodeChar_cases c with ⟨hlt, hbytes⟩ | ⟨-, byte, rest, hbyte, hbytes⟩
  · exact ⟨_, _, fun hzero => hc (Bytes.ascii_injective hlt (by decide) hzero), hbytes⟩
  · refine ⟨byte, rest, ?_, hbytes⟩
    rintro rfl
    exact absurd hbyte (by decide)

theorem dropWhile_flatMap_utf8EncodeChar (cs : List Char) :
    (cs.flatMap String.utf8EncodeChar).dropWhile (· = 0) =
      (cs.dropWhile (· = nul)).flatMap String.utf8EncodeChar := by
  induction cs with
  | nil => rfl
  | cons c cs ih =>
    rw [List.flatMap_cons]
    rcases utf8EncodeChar_nul_or c with ⟨hc, hbytes⟩ | ⟨hc, byte, rest, hbyte, hbytes⟩
    · rw [hbytes, List.singleton_append, List.dropWhile_cons_of_pos (by decide), ih,
        List.dropWhile_cons_of_pos (by simpa using hc)]
    · rw [hbytes, List.cons_append, List.dropWhile_cons_of_neg (by simpa using hbyte),
        List.dropWhile_cons_of_neg (by simpa using hc), List.flatMap_cons, hbytes, List.cons_append]

/-- The text without the NULs that it begins with. -/
def trimNul (text : String) : String := String.ofList (text.toList.dropWhile (· = nul))

theorem dropWhile_ofText (text : String) :
    (Bytes.ofText text).dropWhile (· = 0) = Bytes.ofText (trimNul text) := by
  rw [Bytes.ofText_eq, dropWhile_flatMap_utf8EncodeChar, trimNul, Bytes.ofText_ofList]

/-- Texts that differ only in the NULs that they begin with write the same number. -/
theorem toNat_ofText_trimNul (text : String) :
    (Bytes.ofText (trimNul text)).toNat = (Bytes.ofText text).toNat := by
  rw [← dropWhile_ofText, Bytes.toNat_dropWhile]

theorem trimNul_eq_self_iff {text : String} :
    trimNul text = text ↔ text.toList.head? ≠ some nul := by
  rw [trimNul, ← String.toList_inj, String.toList_ofList]
  cases htext : text.toList with
  | nil => exact iff_of_true rfl nofun
  | cons c cs =>
    rw [List.head?_cons, ne_eq, Option.some.injEq]
    by_cases hc : c = nul
    · subst hc
      -- What is left of the rest would be longer than the rest.
      refine iff_of_false (fun h => ?_) (not_not_intro rfl)
      rw [List.dropWhile_cons_of_pos (by decide)] at h
      have hle := (List.dropWhile_suffix (l := cs) fun c => decide (c = nul)).length_le
      rw [h, List.length_cons] at hle
      exact Nat.not_succ_le_self _ hle
    · exact iff_of_true (List.dropWhile_cons_of_neg (by simpa using hc)) hc

namespace Word

theorem ofShortText_eq_ok {text : String} {w : Word} :
    ofShortText text = .ok w ↔
      (Bytes.ofText text).length ≤ 32 ∧ w.toNat = (Bytes.ofText text).toNat := by
  simp only [ofShortText]
  split
  · next h =>
    rw [Except.ok.injEq, ← toNat_inj]
    exact ⟨fun hw => ⟨h, hw.symm⟩, fun hw => hw.2.symm⟩
  · next h =>
    constructor
    · intro herror
      cases herror
    · intro hw
      exact absurd hw.1 h

theorem exists_ofShortText {text : String} :
    (∃ w, ofShortText text = .ok w) ↔ (Bytes.ofText text).length ≤ 32 := by
  refine ⟨fun ⟨_, hw⟩ => (ofShortText_eq_ok.1 hw).1, fun h => ⟨_, dif_pos h⟩⟩

theorem ofShortText_eq_tooLong {text : String} :
    ofShortText text = .error (.tooLong (Bytes.ofText text).length) ↔
      32 < (Bytes.ofText text).length := by
  refine ⟨fun h => Nat.lt_of_not_le fun hle => ?_, fun h => dif_neg (Nat.not_le.2 h)⟩
  obtain ⟨w, hw⟩ := exists_ofShortText.2 hle
  rw [hw] at h
  cases h

theorem toShortText_ofShortText {text : String} {w : Word} (h : ofShortText text = .ok w) :
    w.toShortText = .ok (trimNul text) := by
  obtain ⟨hlength, hw⟩ := ofShortText_eq_ok.1 h
  rw [toShortText, toBytes, hw, Bytes.ofNat_toNat hlength, Bytes.dropWhile_replicate_append,
    dropWhile_ofText, Bytes.toText?_eq_some.2 rfl]

/-- The bytes of the word without the zeros in front of them. -/
def significant (w : Word) : Bytes := w.toBytes.dropWhile (· = 0)

theorem toShortText_eq_ok {w : Word} {text : String} :
    w.toShortText = .ok text ↔ w.significant = Bytes.ofText text := by
  rw [← Bytes.toText?_eq_some, toShortText, significant]
  split
  · next h => rw [h, Except.ok.injEq, Option.some.injEq]
  · next h =>
    rw [h]
    exact iff_of_false nofun nofun

theorem exists_toShortText {w : Word} :
    (∃ text, w.toShortText = .ok text) ↔ ByteArray.IsValidUTF8 ⟨w.significant.toArray⟩ := by
  rw [← Bytes.isSome_toText?, Option.isSome_iff_exists]
  exact exists_congr fun text => toShortText_eq_ok.trans Bytes.toText?_eq_some.symm

theorem toShortText_eq_invalidUtf8 {w : Word} :
    w.toShortText = .error .invalidUtf8 ↔ ¬ ByteArray.IsValidUTF8 ⟨w.significant.toArray⟩ := by
  rw [← exists_toShortText, toShortText]
  split
  · next text _ => exact iff_of_false nofun fun h => h ⟨text, rfl⟩
  · exact iff_of_true rfl fun ⟨_, h⟩ => by cases h

/-- A word that is read as a text is the word of that text. -/
theorem ofShortText_toShortText {w : Word} {text : String} (h : w.toShortText = .ok text) :
    ofShortText text = .ok w := by
  have hbytes := toShortText_eq_ok.1 h
  refine ofShortText_eq_ok.2 ⟨?_, ?_⟩
  · rw [← hbytes, ← length_toBytes w]
    exact (List.dropWhile_suffix _).length_le
  · rw [← hbytes, significant, Bytes.toNat_dropWhile, toNat_toBytes]

/-- Texts share a word exactly if they differ only in the NULs that they begin with. -/
theorem ofShortText_eq_iff {s t : String} {w : Word} (hs : ofShortText s = .ok w) :
    ofShortText t = .ok w ↔ (Bytes.ofText t).length ≤ 32 ∧ trimNul t = trimNul s := by
  constructor
  · intro h
    have hread := toShortText_ofShortText h
    rw [toShortText_ofShortText hs] at hread
    exact ⟨(ofShortText_eq_ok.1 h).1, (Except.ok.inj hread).symm⟩
  · rintro ⟨ht, htrim⟩
    refine ofShortText_eq_ok.2 ⟨ht, ?_⟩
    rw [(ofShortText_eq_ok.1 hs).2, ← toNat_ofText_trimNul s, ← htrim, toNat_ofText_trimNul]

/-- The texts of at most 32 bytes have words, and are read back without the NULs that they begin
with. So those that differ only in these NULs share a word, and a text is read back as it was exactly
if it begins with none. A word is read as a text exactly if its bytes after the zeros are valid UTF-8,
and it is the word of the text that it is read as. -/
theorem shortText_exact :
    (∀ text, text.utf8ByteSize ≤ 32 ↔
      ∃ w, ofShortText text = .ok w ∧ w.toShortText = .ok (trimNul text)) ∧
    (∀ text, ofShortText text = .error (.tooLong text.utf8ByteSize) ↔ 32 < text.utf8ByteSize) ∧
    (∀ s t w, ofShortText s = .ok w →
      (ofShortText t = .ok w ↔ t.utf8ByteSize ≤ 32 ∧ trimNul t = trimNul s)) ∧
    (∀ text w, ofShortText text = .ok w →
      (w.toShortText = .ok text ↔ text.toList.head? ≠ some nul)) ∧
    (∀ w : Word, ByteArray.IsValidUTF8 ⟨w.significant.toArray⟩ ↔
      ∃ text, w.toShortText = .ok text ∧ ofShortText text = .ok w) ∧
    ∀ w : Word, w.toShortText = .error .invalidUtf8 ↔
      ¬ ByteArray.IsValidUTF8 ⟨w.significant.toArray⟩ := by
  refine ⟨fun text => ?_, fun text => ofShortText_eq_tooLong, fun s t w => ofShortText_eq_iff,
    fun text w h => ?_, fun w => ?_, fun w => toShortText_eq_invalidUtf8⟩
  · rw [← Bytes.length_ofText, ← exists_ofShortText]
    exact exists_congr fun w => ⟨fun h => ⟨h, toShortText_ofShortText h⟩, And.left⟩
  · rw [toShortText_ofShortText h, Except.ok.injEq, trimNul_eq_self_iff]
  · rw [← exists_toShortText]
    exact exists_congr fun text => ⟨fun h => ⟨h, ofShortText_toShortText h⟩, And.left⟩

/-- The word of a letter with an accent, which has two bytes. -/
def accented : Word := ⟨0xc3a9, by decide⟩

/-- A NUL in front of the letter is lost. -/
theorem shortText_exact_nul :
    ofShortText "\x00é" = .ok accented ∧ ofShortText "é" = .ok accented ∧
    accented.toShortText = .ok "é" ∧ accented.toShortText ≠ .ok "\x00é" := by
  obtain ⟨-, -, hshare, hback, -, -⟩ := shortText_exact
  have hnul : ofShortText "\x00é" = .ok accented := ofShortText_eq_ok.2 (by decide)
  have hplain : ofShortText "é" = .ok accented :=
    (hshare _ _ _ hnul).2 ⟨by decide, by decide⟩
  exact ⟨hnul, hplain, (hback _ _ hplain).2 (by decide), fun h =>
    absurd rfl ((hback _ _ hnul).1 h)⟩

end Word

end StableSupply
