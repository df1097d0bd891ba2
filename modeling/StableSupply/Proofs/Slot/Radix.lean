import Mathlib.Data.Nat.Digits.Lemmas
import StableSupply.Proofs.Bytes
import StableSupply.Proofs.Slot.Names

/-! # A digest that keeps names apart

Names of slots are short and made of lower-case letters, digits and underscores, unless a region or
a timeframe brings in something else. Read as a number in a base with a digit other than zero for
each of these characters, such a name fits a digest and can be read off it again.
`Radix.separates_of_plain` says so for a token whose regions and timeframes have such names; it shows
that `Digest.Separates` can be met. -/

namespace StableSupply.Radix

/-- The digit of a byte, zero for a byte that no plain name contains. -/
def rank (byte : UInt8) : Nat :=
  if 48 ≤ byte.toNat ∧ byte.toNat ≤ 57 then byte.toNat - 47
  else if 97 ≤ byte.toNat ∧ byte.toNat ≤ 122 then byte.toNat - 86
  else if byte.toNat = 95 then 37
  else 0

theorem rank_lt (byte : UInt8) : rank byte < 38 := by
  unfold rank
  split
  · omega
  · split
    · omega
    · split <;> omega

/-- A byte is known by its digit. -/
theorem rank_injective {a b : UInt8} (ha : rank a ≠ 0) (h : rank a = rank b) : a = b := by
  apply UInt8.toNat_inj.1
  unfold rank at ha h
  split at h <;> split at h <;> grind

/-- The number that a byte string writes, least significant digit first. -/
def value (bytes : Bytes) : Nat := Nat.ofDigits 38 (bytes.map rank)

/-- The value, cut to the size of a digest. -/
abbrev digest : Digest := ⟨fun bytes => ⟨value bytes % 256 ^ 32, Nat.mod_lt _ (by decide)⟩⟩

/-! ## Plain byte strings -/

/-- Few enough bytes, each with a digit of its own. -/
def Plain (bytes : Bytes) : Prop := bytes.length ≤ 48 ∧ ∀ byte ∈ bytes, rank byte ≠ 0

instance (bytes : Bytes) : Decidable (Plain bytes) := inferInstanceAs (Decidable (_ ∧ _))

theorem Plain.value_lt_pow {bytes : Bytes} (h : Plain bytes) : value bytes < 38 ^ 48 := by
  have hdigits : ∀ d ∈ bytes.map rank, d < 38 := by
    intro d hd
    obtain ⟨byte, -, rfl⟩ := List.mem_map.1 hd
    exact rank_lt byte
  calc
    value bytes < 38 ^ (bytes.map rank).length :=
      Nat.ofDigits_lt_base_pow_length (by decide) hdigits
    _ ≤ 38 ^ 48 := Nat.pow_le_pow_right (by decide) (by rw [List.length_map]; exact h.1)

theorem Plain.value_lt {bytes : Bytes} (h : Plain bytes) : value bytes < 256 ^ 32 :=
  h.value_lt_pow.trans (by decide)

theorem Plain.digits_value {bytes : Bytes} (h : Plain bytes) :
    Nat.digits 38 (value bytes) = bytes.map rank := by
  refine Nat.digits_ofDigits 38 (by decide) _ (fun d hd => ?_) fun hne => ?_
  · obtain ⟨byte, -, rfl⟩ := List.mem_map.1 hd
    exact rank_lt byte
  · obtain ⟨byte, hbyte, hlast⟩ := List.mem_map.1 (List.getLast_mem hne)
    rw [← hlast]
    exact h.2 byte hbyte

theorem Plain.map_rank_injective {a b : Bytes} (ha : Plain a) (h : a.map rank = b.map rank) :
    a = b := by
  induction a generalizing b with
  | nil => exact (List.map_eq_nil_iff.1 h.symm).symm
  | cons x a ih =>
    cases b with
    | nil => cases h
    | cons y b =>
      obtain ⟨hxy, hab⟩ := List.cons.inj h
      have htail : Plain a :=
        ⟨Nat.le_of_succ_le ha.1, fun z hz => ha.2 z (List.mem_cons_of_mem _ hz)⟩
      rw [rank_injective (ha.2 x List.mem_cons_self) hxy, ih htail hab]

theorem Plain.value_injective {a b : Bytes} (ha : Plain a) (hb : Plain b)
    (h : value a = value b) : a = b := by
  refine ha.map_rank_injective ?_
  rw [← ha.digits_value, ← hb.digits_value, h]

theorem Plain.digest_injective {a b : Bytes} (ha : Plain a) (hb : Plain b)
    (h : digest.digest a = digest.digest b) : a = b := by
  have hmod : value a % 256 ^ 32 = value b % 256 ^ 32 := congrArg Hash.toNat h
  rw [Nat.mod_eq_of_lt ha.value_lt, Nat.mod_eq_of_lt hb.value_lt] at hmod
  exact ha.value_injective hb hmod

/-! ## Bytes of names -/

theorem rank_digit {c : Char} (h : c.isDigit) : rank (Bytes.ascii c) ≠ 0 := by
  have hlo : 48 ≤ c.toNat := (Char.isDigit_iff_toNat.1 h).1
  have hhi : c.toNat ≤ 57 := (Char.isDigit_iff_toNat.1 h).2
  rw [rank, Bytes.toNat_ascii (by omega), if_pos ⟨hlo, hhi⟩]
  omega

theorem plain_slotName (field : HistoryField) (index : UInt64) :
    Plain (Bytes.ofText (field.slotName index)) := by
  have hnumber : Bytes.ofText (toString index.toNat) =
      (Nat.toDigits 10 index.toNat).map Bytes.ascii := by
    rw [Nat.toString_eq_ofList_toDigits]
    refine Bytes.ofText_ascii fun c hc => ?_
    have hdigit := Nat.isDigit_of_mem_toDigits (by decide) (by decide) hc
    exact Nat.lt_of_le_of_lt (Char.isDigit_iff_toNat.1 hdigit).2 (by decide)
  have hlength : (Nat.toDigits 10 index.toNat).length ≤ 20 :=
    (Nat.length_toDigits_le_iff (by decide) (by decide)).2
      (Nat.lt_trans index.toNat_lt (by decide))
  have hends : (Bytes.ofText "adjustment_").length = 11 ∧ (Bytes.ofText "_").length = 1 ∧
      (Bytes.ofText field.label).length ≤ 14 ∧
      ∀ byte ∈ Bytes.ofText "adjustment_" ++ Bytes.ofText "_" ++ Bytes.ofText field.label,
        rank byte ≠ 0 := by
    cases field <;> decide +kernel
  obtain ⟨hbegin, hmark, hlabel, hplain⟩ := hends
  rw [HistoryField.slotName, Bytes.ofText_append, Bytes.ofText_append, Bytes.ofText_append, hnumber]
  constructor
  · simp only [List.length_append, List.length_map]
    omega
  · intro byte hbyte
    simp only [List.mem_append] at hbyte hplain
    rcases hbyte with ((hbyte | hbyte) | hbyte) | hbyte
    · exact hplain byte (.inl (.inl hbyte))
    · obtain ⟨c, hc, rfl⟩ := List.mem_map.1 hbyte
      exact rank_digit (Nat.isDigit_of_mem_toDigits (by decide) (by decide) hc)
    · exact hplain byte (.inl (.inr hbyte))
    · exact hplain byte (.inr hbyte)

/-! ## Names in use -/

section Names

variable {token : StableToken}

/-- The names in use are plain if those of the regions' and timeframes' slots are. -/
theorem plain_of_nameInUse
    (hregions : ∀ region ∈ token.continentalWeights.keys,
      Plain (Bytes.ofText (Slot.continentalWeight region).name))
    (hframes : ∀ frame ∈ token.timeframeWeights.keys,
      Plain (Bytes.ofText (Slot.timeframeWeight frame).name))
    (hwindows : ∀ frame ∈ token.smoothingWindows.keys,
      Plain (Bytes.ofText (Slot.smoothingWindow frame).name))
    {name : String} (h : NameInUse token name) : Plain (Bytes.ofText name) := by
  cases h with
  | field field index => exact plain_slotName field index
  | @slot slot h =>
    cases slot with
    | continentalWeight region => exact hregions region h
    | timeframeWeight frame => exact hframes frame h
    | smoothingWindow frame => exact hwindows frame h
    | _ => decide +kernel

/-- The digest keeps names apart if they are all plain. -/
theorem separates_of_plain
    (hplain : ∀ name, NameInUse token name → Plain (Bytes.ofText name)) :
    @Digest.Separates digest token := fun ha hb h =>
  Bytes.ofText_injective ((hplain _ ha).digest_injective (hplain _ hb) h)

end Names

/-- A token without regions and timeframes. -/
def token : StableToken :=
  { StableToken.default with
    continentalWeights := .empty
    timeframeWeights := .empty
    smoothingWindows := .empty }

theorem separates : @Digest.Separates digest token :=
  separates_of_plain fun _ => plain_of_nameInUse (by decide) (by decide) (by decide)

end StableSupply.Radix
