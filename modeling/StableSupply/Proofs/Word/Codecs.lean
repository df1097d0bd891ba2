import StableSupply.Proofs.Address
import StableSupply.Proofs.Word

/-! # Exact codecs

The three codecs of narrow values keep the bytes of a value at the end of a word and fill the bytes
in front of them (`Word.Codec`). Each is exact (`Word.Codec.Exact`): its decoder takes the words that
its encoder gives and no others. These are the words of a range of numbers, and by their bytes those
that are filled as they should be. `Word.codecs_exact` says so of all three, and in which words two
of them meet. -/

namespace StableSupply

namespace Word

theorem toAddress_eq_ok {w : Word} {a : Address} : w.toAddress = .ok a ↔ w = .ofAddress a := by
  unfold toAddress
  split
  · next h =>
    rw [Except.ok.injEq, ← toNat_inj, ← Address.toNat_inj]
    exact Iff.rfl
  · next h =>
    constructor
    · intro herror
      cases herror
    · rintro rfl
      exact absurd a.isLt h

/-! ## Layout -/

/-- A narrow type in words: the bytes of a value stand at the end, and those before them are all
alike. -/
structure Codec (α : Type) where
  encode : α → Word
  decode : Word → Except WordError α
  /-- What a word that is not decoded does not fit in. -/
  target : Narrow
  /-- The words of values, by their numbers. -/
  InRange : Word → Prop
  width : Nat
  width_le : width ≤ 32
  /-- The number that the bytes of a value write. -/
  number : α → Nat
  exists_number : ∀ n < 256 ^ width, ∃ a, number a = n
  /-- The byte that stands before the bytes of a value. -/
  fill : Bytes → UInt8

namespace Codec

variable {α : Type}

/-- The bytes of a value. -/
def bytes (c : Codec α) (a : α) : Bytes := .ofNat c.width (c.number a)

theorem exists_bytes (c : Codec α) {b : Bytes} (h : b.length = c.width) : ∃ a, c.bytes a = b := by
  obtain ⟨a, ha⟩ := c.exists_number _ (Bytes.toNat_lt_of_length h)
  refine ⟨a, Bytes.ofNat_eq_iff.2 ⟨h, ?_⟩⟩
  rw [ha, Nat.mod_eq_of_lt (Bytes.toNat_lt_of_length h)]

/-- The bytes of a value, filled up to a word. -/
def filled (c : Codec α) (b : Bytes) : Bytes := List.replicate (32 - c.width) (c.fill b) ++ b

/-- The bytes before those of a value are as they should be. -/
def Filled (c : Codec α) (b : Bytes) : Prop :=
  ∀ byte ∈ b.take (32 - c.width), byte = c.fill (b.drop (32 - c.width))

/-- The decoder gives back what was encoded, and what it takes is what was encoded: the words in
range, or those whose bytes are filled up. -/
structure Exact (c : Codec α) : Prop where
  decode_encode : ∀ a, c.decode (c.encode a) = .ok a
  encode_of_decode : ∀ {w a}, c.decode w = .ok a → c.encode a = w
  accepts_iff : ∀ w, (∃ a, c.decode w = .ok a) ↔ c.InRange w
  rejects_iff : ∀ w, c.decode w = .error (.outOfRange c.target) ↔ ¬ c.InRange w
  image_iff : ∀ w, (∃ a, c.encode a = w) ↔ c.InRange w
  toBytes_encode : ∀ a, (c.encode a).toBytes = c.filled (c.bytes a)
  filled_iff : ∀ w, c.Filled w.toBytes ↔ c.InRange w

/-- A word is filled as it should be exactly if it is the word of some value. -/
theorem filled_toBytes_iff {c : Codec α} (hbytes : ∀ a, (c.encode a).toBytes = c.filled (c.bytes a))
    (w : Word) : c.Filled w.toBytes ↔ ∃ a, c.encode a = w := by
  have hwidth := c.width_le
  constructor
  · intro h
    have hlength : (w.toBytes.drop (32 - c.width)).length = c.width := by
      rw [List.length_drop, length_toBytes]
      omega
    obtain ⟨a, ha⟩ := c.exists_bytes hlength
    refine ⟨a, toBytes_injective ?_⟩
    have htake : w.toBytes.take (32 - c.width) =
        List.replicate (32 - c.width) (c.fill (c.bytes a)) := by
      refine List.eq_replicate_iff.2 ⟨?_, fun byte hbyte => ha ▸ h byte hbyte⟩
      rw [List.length_take, length_toBytes]
      omega
    rw [hbytes, filled, ← htake, ha, List.take_append_drop]
  · rintro ⟨a, rfl⟩
    have hlength : (List.replicate (32 - c.width) (c.fill (c.bytes a))).length = 32 - c.width :=
      List.length_replicate
    intro byte hbyte
    rw [hbytes, filled, List.take_left' hlength] at hbyte
    rw [hbytes, filled, List.drop_left' hlength]
    exact List.eq_of_mem_replicate hbyte

/-- The bytes of a word are known by its number, taken apart at the width of a value. -/
theorem toBytes_eq_filled {c : Codec α} {w : Word} {a : α}
    (hlower : w.toNat % 256 ^ c.width = c.number a)
    (hupper : w.toNat / 256 ^ c.width =
      Bytes.toNat (List.replicate (32 - c.width) (c.fill (c.bytes a)))) :
    w.toBytes = c.filled (c.bytes a) := by
  have hsplit : w.toBytes = .ofNat (32 - c.width) (w.toNat / 256 ^ c.width) ++
      .ofNat c.width w.toNat := by
    rw [← Bytes.ofNat_add, Nat.sub_add_cancel c.width_le, toBytes]
  have hnumber : Bytes.ofNat c.width w.toNat = c.bytes a := by
    refine Bytes.ofNat_eq_iff.2 ⟨Bytes.length_ofNat .., ?_⟩
    rw [bytes, Bytes.toNat_ofNat_mod, ← hlower, Nat.mod_mod]
  rw [hsplit, hnumber, hupper, filled, Bytes.ofNat_toNat (by simp)]
  simp

/-- What is to be shown of a codec: that it decodes what it encodes and no more, in which range that
is, and which bytes it gives. -/
theorem exact_of {c : Codec α} (hdecode : ∀ {w a}, c.decode w = .ok a ↔ w = c.encode a)
    (haccepts : ∀ w, c.InRange w → ∃ a, c.decode w = .ok a)
    (hrejects : ∀ w, ¬ c.InRange w → c.decode w = .error (.outOfRange c.target))
    (hbytes : ∀ a, (c.encode a).toBytes = c.filled (c.bytes a)) : c.Exact := by
  have hok (w : Word) : (∃ a, c.decode w = .ok a) ↔ c.InRange w := by
    by_cases hrange : c.InRange w
    · exact iff_of_true (haccepts w hrange) hrange
    · refine iff_of_false (fun ⟨a, ha⟩ => ?_) hrange
      rw [hrejects w hrange] at ha
      cases ha
  have himage (w : Word) : (∃ a, c.encode a = w) ↔ c.InRange w := by
    rw [← hok]
    exact exists_congr fun a => eq_comm.trans hdecode.symm
  refine ⟨fun a => hdecode.2 rfl, fun h => (hdecode.1 h).symm, hok, fun w => ⟨?_, hrejects w⟩,
    himage, hbytes, fun w => (filled_toBytes_iff hbytes w).trans (himage w)⟩
  intro h hrange
  obtain ⟨a, ha⟩ := haccepts w hrange
  rw [ha] at h
  cases h

end Codec

/-! ## The three codecs -/

/-- Zeros stand before an unsigned number. -/
def unsigned : Codec UInt64 where
  encode := ofUInt64
  decode := toUInt64
  target := .unsigned
  InRange w := w.toNat < 2 ^ 64
  width := 8
  width_le := by decide
  number := UInt64.toNat
  exists_number n h := ⟨.ofNat n, UInt64.toNat_ofNat_of_lt' h⟩
  fill _ := 0

/-- The first bit of a number in two's complement stands before it, over and over. -/
def signed : Codec Int64 where
  encode := ofInt64
  decode := toInt64
  target := .signed
  InRange w := -2 ^ 63 ≤ w.toInt ∧ w.toInt < 2 ^ 63
  width := 8
  width_le := by decide
  number n := (n.toInt % 2 ^ 64).toNat
  exists_number n h := by
    refine ⟨.ofInt n, ?_⟩
    have hmod : (n : Int).bmod Int64.size % 2 ^ 64 = n % 2 ^ 64 := Int.bmod_emod
    rw [Int64.toInt_ofInt, hmod]
    omega
  fill b := if 128 ≤ (b.headD 0).toNat then 255 else 0

/-- Zeros stand before an address. -/
def addresses : Codec Address where
  encode := ofAddress
  decode := toAddress
  target := .address
  InRange w := w.toNat < 2 ^ 160
  width := 20
  width_le := by decide
  number := Address.toNat
  exists_number n h := ⟨⟨n, h⟩, rfl⟩
  fill _ := 0

theorem unsigned_exact : unsigned.Exact := by
  refine Codec.exact_of toUInt64_eq_ok (fun w h => exists_toUInt64.2 h) (fun w h => if_neg h)
    fun n => Codec.toBytes_eq_filled (Nat.mod_eq_of_lt n.toNat_lt) ?_
  exact (Nat.div_eq_of_lt n.toNat_lt).trans (Bytes.toNat_replicate_zero 24).symm

theorem addresses_exact : addresses.Exact := by
  refine Codec.exact_of toAddress_eq_ok (fun w h => ⟨_, dif_pos h⟩) (fun w h => dif_neg h)
    fun a => Codec.toBytes_eq_filled (Nat.mod_eq_of_lt a.isLt) ?_
  exact (Nat.div_eq_of_lt a.isLt).trans (Bytes.toNat_replicate_zero 12).symm

/-- The first bit of a number in two's complement is its sign. -/
theorem fill_signed (n : Int64) :
    signed.fill (signed.bytes n) = if n.toInt < 0 then 255 else 0 := by
  have hlo := n.le_toInt
  have hhi := n.toInt_lt
  have hbytes : signed.bytes n = UInt8.ofNat ((n.toInt % 2 ^ 64).toNat / 256 ^ 7) ::
      Bytes.ofNat 7 (n.toInt % 2 ^ 64).toNat := Bytes.ofNat_add 1 7 _
  have hfill : signed.fill (signed.bytes n) =
      if 128 ≤ ((signed.bytes n).headD 0).toNat then 255 else 0 := rfl
  rw [hfill, hbytes, List.headD_cons, UInt8.toNat_ofNat']
  have hsign : 128 ≤ (n.toInt % 2 ^ 64).toNat / 256 ^ 7 % 2 ^ 8 ↔ n.toInt < 0 := by omega
  simp only [hsign]

theorem signed_exact : signed.Exact := by
  refine Codec.exact_of toInt64_eq_ok (fun w h => ⟨_, if_pos h⟩) (fun w h => if_neg h)
    fun n => ?_
  have hlo := n.le_toInt
  have hhi := n.toInt_lt
  have hw : (ofInt64 n).toNat = (n.toInt % 2 ^ 256).toNat := rfl
  refine Codec.toBytes_eq_filled (w := ofInt64 n) ?_ ?_
  · show (ofInt64 n).toNat % 2 ^ 64 = (n.toInt % 2 ^ 64).toNat
    omega
  · rw [fill_signed]
    show (ofInt64 n).toNat / 2 ^ 64 = _
    split
    · rw [show Bytes.toNat (List.replicate (32 - signed.width) 255) = 2 ^ 192 - 1 by decide]
      omega
    · rw [Bytes.toNat_replicate_zero]
      omega

/-! ## Bytes of full words -/

theorem ofBytes?_eq_some {b : Bytes} {w : Word} : ofBytes? b = some w ↔ w.toBytes = b := by
  rw [toBytes, Bytes.ofNat_eq_iff, Nat.mod_eq_of_lt (show w.toNat < 256 ^ 32 from w.isLt), ofBytes?]
  split
  · next h =>
    rw [Option.some.injEq, ← toNat_inj]
    exact ⟨fun hw => ⟨h, hw.symm⟩, fun hw => hw.2.symm⟩
  · next h =>
    constructor
    · intro hnone
      cases hnone
    · intro hw
      exact absurd hw.1 h

/-! ## Words that two codecs share -/

theorem toInt_of_lt {w : Word} (h : w.toNat < 2 ^ 63) : w.toInt = w.toNat :=
  if_pos (Nat.lt_trans h (by decide))

/-- The unsigned and the signed numbers share the words below `2 ^ 63`. -/
theorem inRange_both_iff (w : Word) :
    unsigned.InRange w ∧ signed.InRange w ↔ w.toNat < 2 ^ 63 := by
  show w.toNat < 2 ^ 64 ∧ -2 ^ 63 ≤ w.toInt ∧ w.toInt < 2 ^ 63 ↔ _
  unfold toInt
  split <;> omega

theorem same_number {w : Word} {n : UInt64} {m : Int64} (hn : w.toUInt64 = .ok n)
    (hm : w.toInt64 = .ok m) : (n.toNat : Int) = m.toInt := by
  have hrange : w.toNat < 2 ^ 63 := (inRange_both_iff w).1
    ⟨(unsigned_exact.accepts_iff w).1 ⟨n, hn⟩, (signed_exact.accepts_iff w).1 ⟨m, hm⟩⟩
  have hint := toInt_of_lt hrange
  rw [toUInt64_eq_ok.1 hn] at hint
  rw [← toInt_ofInt64, ← toInt64_eq_ok.1 hm, toUInt64_eq_ok.1 hn, hint]
  rfl

/-- A negative number stands above all unsigned numbers and addresses. -/
theorem le_ofInt64 {n : Int64} (h : n < 0) : 2 ^ 160 ≤ (ofInt64 n).toNat := by
  have hneg : n.toInt < 0 := Int64.lt_iff_toInt_lt.1 h
  have hlo := n.le_toInt
  show 2 ^ 160 ≤ (n.toInt % 2 ^ 256).toNat
  omega

/-- The codecs of narrow values are exact, and so are words as strings of 32 bytes. A word decodes
both as an unsigned and as a signed number exactly if it is below `2 ^ 63`, and then to the same
number. The word of a negative number decodes neither as an unsigned number nor as an address. -/
theorem codecs_exact :
    unsigned.Exact ∧ signed.Exact ∧ addresses.Exact ∧
    (∀ w : Word, w.toBytes.length = 32 ∧ w.toBytes.toNat = w.toNat) ∧
    (∀ (w : Word) (b : Bytes), ofBytes? b = some w ↔ w.toBytes = b) ∧
    (∀ w : Word, ((∃ n, w.toUInt64 = .ok n) ∧ ∃ m, w.toInt64 = .ok m) ↔ w.toNat < 2 ^ 63) ∧
    (∀ (w : Word) (n : UInt64) (m : Int64), w.toUInt64 = .ok n → w.toInt64 = .ok m →
      (n.toNat : Int) = m.toInt) ∧
    ∀ n : Int64, n < 0 → (ofInt64 n).toUInt64 = .error (.outOfRange .unsigned) ∧
      (ofInt64 n).toAddress = .error (.outOfRange .address) := by
  refine ⟨unsigned_exact, signed_exact, addresses_exact,
    fun w => ⟨length_toBytes w, toNat_toBytes w⟩, fun w b => ofBytes?_eq_some, fun w => ?_,
    fun w n m => same_number, fun n h => ?_⟩
  · rw [← inRange_both_iff]
    exact and_congr (unsigned_exact.accepts_iff w) (signed_exact.accepts_iff w)
  · have hle := le_ofInt64 h
    exact ⟨toUInt64_of_le (Nat.le_trans (by decide) hle), dif_neg (Nat.not_lt.2 hle)⟩

/-- At the least number, and at the two words between which the signed numbers end. -/
theorem codecs_exact_ends :
    Int64.minValue < 0 ∧
    (ofInt64 Int64.minValue).toUInt64 = .error (.outOfRange .unsigned) ∧
    (ofInt64 Int64.minValue).toAddress = .error (.outOfRange .address) ∧
    (ofUInt64 0x7fffffffffffffff).toInt64 = .ok Int64.maxValue ∧
    ((0x7fffffffffffffff : UInt64).toNat : Int) = Int64.maxValue.toInt ∧
    ¬ ∃ m, (ofUInt64 0x8000000000000000).toInt64 = .ok m := by
  obtain ⟨hunsigned, -, -, -, -, hboth, hsame, hnegative⟩ := codecs_exact
  have hmin : Int64.minValue < 0 := by decide
  have hmax : (ofUInt64 0x7fffffffffffffff).toInt64 = .ok Int64.maxValue :=
    toInt64_eq_ok.2 (by decide)
  refine ⟨hmin, (hnegative _ hmin).1, (hnegative _ hmin).2, hmax,
    hsame _ _ _ (hunsigned.decode_encode _) hmax, fun hm => ?_⟩
  exact absurd ((hboth _).1 ⟨⟨_, hunsigned.decode_encode _⟩, hm⟩) (by decide)

end Word

end StableSupply
