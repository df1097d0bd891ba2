import StableSupply.Bytes

/-! # Bytes of numbers and of texts

The last bytes of a number say what it is modulo a power of 256 (`Bytes.ofNat_eq_iff`), and a wide
number is written by its upper and its lower bytes (`Bytes.ofNat_add`). A text is determined by its
UTF-8 bytes, in which a byte below 128 is a character by itself and any other character begins with
a larger one (`utf8EncodeChar_cases`). -/

namespace StableSupply

namespace Bytes

/-! ## Numbers of a width -/

theorem toNat_nil : toNat [] = 0 := rfl

theorem toNat_zero_cons (bytes : Bytes) : toNat (0 :: bytes) = toNat bytes := by
  simp [toNat_cons]

theorem toNat_replicate_zero (n : Nat) : toNat (List.replicate n 0) = 0 := by
  induction n with
  | zero => rfl
  | succ n ih => rw [List.replicate_succ, toNat_zero_cons, ih]

/-- A byte string shorter than asked for is padded with zeros in front. -/
theorem ofNat_toNat {bytes : Bytes} {len : Nat} (h : bytes.length ≤ len) :
    ofNat len bytes.toNat = List.replicate (len - bytes.length) 0 ++ bytes := by
  induction len generalizing bytes with
  | zero =>
    obtain rfl := List.length_eq_zero_iff.1 (Nat.le_zero.1 h)
    rfl
  | succ len ih =>
    rcases bytes.eq_nil_or_concat with rfl | ⟨front, byte, rfl⟩
    · have hzeros : ofNat len 0 = List.replicate len 0 := by
        simpa [toNat_nil] using @ih [] (Nat.zero_le _)
      simp [ofNat, toNat_nil, hzeros, List.replicate_succ']
    · have hlt : byte.toNat < 256 := byte.toNat_lt
      have hfront : front.length ≤ len := by simpa using h
      have hquotient : (toNat front * 256 + byte.toNat) / 256 = toNat front := by omega
      rw [List.concat_eq_append, ofNat, toNat_append_singleton, hquotient, ih hfront]
      simp

/-- The upper bytes and the lower ones. -/
theorem ofNat_add (upper lower n : Nat) :
    ofNat (upper + lower) n = ofNat upper (n / 256 ^ lower) ++ ofNat lower n := by
  induction lower generalizing n with
  | zero => simp [ofNat]
  | succ lower ih =>
    rw [← Nat.add_assoc, ofNat, ih, ofNat, Nat.div_div_eq_div_mul, Nat.pow_succ,
      Nat.mul_comm 256, List.append_assoc]

theorem toNat_ofNat_mod (len n : Nat) : toNat (ofNat len n) = n % 256 ^ len := by
  induction len generalizing n with
  | zero => simp [ofNat, toNat_nil, Nat.mod_one]
  | succ len ih =>
    rw [ofNat, toNat_append_singleton, ih, Nat.pow_succ, Nat.mul_comm (256 ^ len), Nat.mod_mul]
    simp
    omega

/-- Byte strings of one length are told apart by their numbers. -/
theorem eq_of_toNat_eq {a b : Bytes} (hlength : a.length = b.length) (h : a.toNat = b.toNat) :
    a = b := by
  have ha := ofNat_toNat (Nat.le_refl a.length)
  have hb := ofNat_toNat (Nat.le_refl b.length)
  rw [Nat.sub_self, List.replicate_zero, List.nil_append] at ha hb
  rw [← ha, hlength, h, hb]

theorem ofNat_eq_iff {len n : Nat} {bytes : Bytes} :
    ofNat len n = bytes ↔ bytes.length = len ∧ n % 256 ^ len = bytes.toNat := by
  constructor
  · rintro rfl
    exact ⟨length_ofNat .., (toNat_ofNat_mod ..).symm⟩
  · rintro ⟨hlength, hvalue⟩
    refine eq_of_toNat_eq ((length_ofNat ..).trans hlength.symm) ?_
    rw [toNat_ofNat_mod, hvalue]

theorem ofNat_inj {len n m : Nat} (hn : n < 256 ^ len) (hm : m < 256 ^ len) :
    ofNat len n = ofNat len m ↔ n = m := by
  refine ⟨fun h => ?_, fun h => h ▸ rfl⟩
  rw [← toNat_ofNat hn, h, toNat_ofNat hm]

/-! ## UTF-8 -/

theorem ofText_ofList (cs : List Char) :
    ofText (String.ofList cs) = cs.flatMap String.utf8EncodeChar := by
  rw [ofText, String.toUTF8, String.toByteArray_ofList]
  exact List.toList_data_toByteArray

theorem ofText_eq (text : String) : ofText text = text.toList.flatMap String.utf8EncodeChar := by
  rw [← ofText_ofList, String.ofList_toList]

theorem length_ofText (text : String) : (ofText text).length = text.utf8ByteSize := rfl

theorem ofText_injective {a b : String} (h : ofText a = ofText b) : a = b :=
  String.toByteArray_inj.1 (ByteArray.ext (Array.toList_inj.1 h))

theorem ofText_append (a b : String) : ofText (a ++ b) = ofText a ++ ofText b := by
  simp [ofText, String.toByteArray_append]

theorem toText?_eq_some {bytes : Bytes} {text : String} :
    toText? bytes = some text ↔ bytes = ofText text := by
  unfold toText? String.fromUTF8?
  split
  · next h =>
    rw [Option.some.injEq]
    constructor
    · rintro rfl
      rfl
    · rintro rfl
      rfl
  · next h =>
    refine ⟨nofun, ?_⟩
    rintro rfl
    exact absurd text.isValidUTF8 h

theorem isSome_toText? {bytes : Bytes} :
    (toText? bytes).isSome ↔ (⟨bytes.toArray⟩ : ByteArray).IsValidUTF8 := by
  unfold toText? String.fromUTF8?
  split
  · next h => exact iff_of_true rfl h
  · next h => exact iff_of_false nofun h

end Bytes

/-- A character below 128 is one byte, and the bytes of any other begin with one that is not. -/
theorem utf8EncodeChar_cases (c : Char) :
    c.toNat < 128 ∧ String.utf8EncodeChar c = [UInt8.ofNat c.toNat] ∨
      128 ≤ c.toNat ∧ ∃ byte rest, 128 ≤ byte.toNat ∧ String.utf8EncodeChar c = byte :: rest := by
  have hbyte {n : Nat} (hlo : 128 ≤ n) (hhi : n < 256) : 128 ≤ (UInt8.ofNat n).toNat := by
    rwa [UInt8.toNat_ofNat', Nat.mod_eq_of_lt hhi]
  have hval : c.val.toNat = c.toNat := rfl
  unfold String.utf8EncodeChar
  simp only [hval]
  split
  · exact .inl ⟨by omega, rfl⟩
  refine .inr ⟨by omega, ?_⟩
  split
  · exact ⟨_, _, hbyte (by omega) (by omega), rfl⟩
  split
  · exact ⟨_, _, hbyte (by omega) (by omega), rfl⟩
  · exact ⟨_, _, hbyte (by omega) (by omega), rfl⟩

/-! ## ASCII -/

namespace Bytes

/-- The byte of a character below 128. -/
def ascii (c : Char) : UInt8 := UInt8.ofNat c.toNat

theorem toNat_ascii {c : Char} (h : c.toNat < 128) : (ascii c).toNat = c.toNat := by
  rw [ascii, UInt8.toNat_ofNat', Nat.mod_eq_of_lt (by omega)]

theorem ascii_injective {c d : Char} (hc : c.toNat < 128) (hd : d.toNat < 128)
    (h : ascii c = ascii d) : c = d := by
  have hcode : c.toNat = d.toNat := by rw [← toNat_ascii hc, h, toNat_ascii hd]
  exact Char.ext (UInt32.toNat_inj.1 hcode)

theorem ofText_ascii {cs : List Char} (h : ∀ c ∈ cs, c.toNat < 128) :
    ofText (String.ofList cs) = cs.map ascii := by
  rw [ofText_ofList]
  induction cs with
  | nil => rfl
  | cons c cs ih =>
    rw [List.flatMap_cons, ih fun d hd => h d (List.mem_cons_of_mem _ hd), List.map_cons]
    rcases utf8EncodeChar_cases c with ⟨-, hbytes⟩ | ⟨hle, -⟩
    · rw [hbytes]
      rfl
    · exact absurd (h c List.mem_cons_self) (by omega)

/-- A text whose bytes are all below 128 has no other characters. -/
theorem ascii_of_ofText {cs : List Char}
    (h : ∀ byte ∈ ofText (String.ofList cs), byte.toNat < 128) : ∀ c ∈ cs, c.toNat < 128 := by
  rw [ofText_ofList] at h
  intro c hc
  rcases utf8EncodeChar_cases c with ⟨hlt, -⟩ | ⟨-, byte, rest, hbyte, hbytes⟩
  · exact hlt
  · have hmem : byte ∈ cs.flatMap String.utf8EncodeChar :=
      List.mem_flatMap.2 ⟨c, hc, hbytes ▸ List.mem_cons_self⟩
    exact absurd (h byte hmem) (by omega)

/-- The bytes of ASCII characters stand at the beginning of a text only if the characters do. -/
theorem prefix_of_ascii {lead cs : List Char} (hlead : ∀ c ∈ lead, c.toNat < 128)
    (h : lead.map ascii <+: ofText (String.ofList cs)) : lead <+: cs := by
  rw [ofText_ofList] at h
  induction lead generalizing cs with
  | nil => exact List.nil_prefix
  | cons c lead ih =>
    have hc := hlead c List.mem_cons_self
    cases cs with
    | nil => exact absurd h (by simp)
    | cons d cs =>
      rw [List.flatMap_cons, List.map_cons] at h
      rcases utf8EncodeChar_cases d with ⟨hd, hbytes⟩ | ⟨-, byte, rest, hbyte, hbytes⟩
      · rw [hbytes, List.singleton_append, List.cons_prefix_cons] at h
        obtain rfl := ascii_injective hc hd h.1
        exact List.cons_prefix_cons.2
          ⟨rfl, ih (fun e he => hlead e (List.mem_cons_of_mem _ he)) h.2⟩
      · rw [hbytes, List.cons_append, List.cons_prefix_cons] at h
        rw [← h.1, toNat_ascii hc] at hbyte
        omega

end Bytes

end StableSupply
