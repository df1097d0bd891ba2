import StableSupply.Adjustment
import StableSupply.Proofs.Bytes

/-! # Words

The bytes of words, their sums and differences, and that words decode to what they encode. -/

namespace StableSupply

namespace Word

/-- A word is its number. -/
theorem toNat_inj {a b : Word} : a.toNat = b.toNat ↔ a = b := by
  cases a
  cases b
  simp

/-! ## Bytes -/

@[simp] theorem length_toBytes (w : Word) : w.toBytes.length = 32 := Bytes.length_ofNat ..

theorem toNat_toBytes (w : Word) : w.toBytes.toNat = w.toNat := Bytes.toNat_ofNat w.isLt

/-- Words with the same bytes are the same. -/
theorem toBytes_injective : Function.Injective toBytes := by
  intro a b h
  rw [← toNat_inj, ← toNat_toBytes, h, toNat_toBytes]

/-! ## Sums and differences -/

theorem ofNat?_eq_some {n : Nat} {w : Word} : ofNat? n = some w ↔ w.toNat = n := by
  unfold ofNat?
  split
  · rw [Option.some.injEq, ← toNat_inj]
    exact eq_comm
  · next h =>
    refine ⟨nofun, fun hw => absurd w.isLt ?_⟩
    rwa [hw]

theorem ofNat?_eq_none {n : Nat} : ofNat? n = none ↔ 2 ^ 256 ≤ n := by
  unfold ofNat?
  split
  · next h => exact ⟨nofun, fun hn => absurd h (Nat.not_lt.2 hn)⟩
  · next h => exact ⟨fun _ => Nat.not_lt.1 h, fun _ => rfl⟩

theorem add?_eq_some {a b c : Word} : a.add? b = some c ↔ c.toNat = a.toNat + b.toNat :=
  ofNat?_eq_some

/-- Only a sum that is no word is refused. -/
theorem add?_eq_none {a b : Word} : a.add? b = none ↔ 2 ^ 256 ≤ a.toNat + b.toNat :=
  ofNat?_eq_none

theorem sub?_eq_some {a b c : Word} : a.sub? b = some c ↔ c.toNat + b.toNat = a.toNat := by
  unfold sub?
  split
  · next h =>
    have hle : b.toNat ≤ a.toNat := h
    rw [Option.some.injEq, ← toNat_inj]
    show a.toNat - b.toNat = c.toNat ↔ _
    omega
  · next h =>
    have hlt : ¬ b.toNat ≤ a.toNat := h
    exact ⟨nofun, fun hc => absurd hc (by omega)⟩

/-- Only a negative difference is refused. -/
theorem sub?_eq_none {a b : Word} : a.sub? b = none ↔ a.toNat < b.toNat := by
  unfold sub?
  split
  · next h =>
    have hle : b.toNat ≤ a.toNat := h
    exact ⟨nofun, fun hn => absurd hle (Nat.not_le.2 hn)⟩
  · next h => exact ⟨fun _ => Nat.not_le.1 h, fun _ => rfl⟩

/-! ## Decoding -/

@[simp] theorem toUInt64_ofUInt64 (n : UInt64) : (ofUInt64 n).toUInt64 = .ok n := by
  rw [toUInt64, if_pos (show (ofUInt64 n).toNat < 2 ^ 64 from n.toNat_lt)]
  simp [ofUInt64]

/-- A signed number is the number of its word in two's complement. -/
theorem toInt_ofInt64 (n : Int64) : (ofInt64 n).toInt = n.toInt := by
  have hlo := n.le_toInt
  have hhi := n.toInt_lt
  have hw : (ofInt64 n).toNat = (n.toInt % 2 ^ 256).toNat := rfl
  rw [toInt]
  split <;> omega

@[simp] theorem toInt64_ofInt64 (n : Int64) : (ofInt64 n).toInt64 = .ok n := by
  rw [toInt64, toInt_ofInt64, if_pos ⟨n.le_toInt, n.toInt_lt⟩, Int64.ofInt_toInt]

/-- The words of unsigned numbers, and no others, are decoded as such. -/
theorem toUInt64_eq_ok {w : Word} {n : UInt64} : w.toUInt64 = .ok n ↔ w = .ofUInt64 n := by
  constructor
  · intro h
    unfold toUInt64 at h
    split at h
    · next hlt =>
      rw [← Except.ok.inj h, ← toNat_inj]
      exact (UInt64.toNat_ofNat_of_lt' hlt).symm
    · cases h
  · rintro rfl
    exact toUInt64_ofUInt64 n

theorem toUInt64_of_le {w : Word} (h : 2 ^ 64 ≤ w.toNat) :
    w.toUInt64 = .error (.outOfRange .unsigned) := if_neg (Nat.not_lt.2 h)

theorem exists_toUInt64 {w : Word} : (∃ n, w.toUInt64 = .ok n) ↔ w.toNat < 2 ^ 64 := by
  constructor
  · rintro ⟨n, hn⟩
    rw [toUInt64_eq_ok.1 hn]
    exact n.toNat_lt
  · exact fun h => ⟨_, if_pos h⟩

/-- The words of signed numbers, and no others, are decoded as such. -/
theorem toInt64_eq_ok {w : Word} {n : Int64} : w.toInt64 = .ok n ↔ w = .ofInt64 n := by
  constructor
  · intro h
    unfold toInt64 at h
    split at h
    · next hfits =>
      have hint : n.toInt = w.toInt := by
        rw [← Except.ok.inj h, Int64.toInt_ofInt_of_le hfits.1 hfits.2]
      have hlt := w.isLt
      rw [← toNat_inj]
      show w.toNat = (n.toInt % 2 ^ 256).toNat
      rw [hint, toInt]
      split <;> omega
    · cases h
  · rintro rfl
    exact toInt64_ofInt64 n

end Word

theorem Kind.ofCode?_code (kind : Kind) : ofCode? kind.code = some kind := by cases kind <;> rfl

/-- No two kinds share a code. -/
theorem Kind.ofCode?_eq_some {code : UInt64} {kind : Kind} :
    ofCode? code = some kind ↔ code = kind.code := by
  constructor
  · intro h
    unfold ofCode? at h
    split at h <;> cases h <;> rfl
  · rintro rfl
    exact ofCode?_code kind

end StableSupply
