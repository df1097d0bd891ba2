import StableSupply.Proofs.Slot.Radix

/-! # A digest for the default token

The regions and timeframes of the default token are written with capitals, so their slots have names
that `Radix.digest` does not read. They are few and short: counted from above all values of plain
names they still fit a digest (`Capitals.separates`). -/

namespace StableSupply.Capitals

open Radix

/-- The value of a plain name, and above all of these the number that other bytes are. -/
def value (bytes : Bytes) : Nat :=
  if Radix.Plain bytes then Radix.value bytes else 38 ^ 48 + bytes.toNat

/-- The value, cut to the size of a digest. -/
abbrev digest : Digest := ⟨fun bytes => ⟨value bytes % 256 ^ 32, Nat.mod_lt _ (by decide)⟩⟩

/-- The names with capitals. -/
def names : List String :=
  StableToken.default.continentalWeights.keys.map (fun region =>
    (Slot.continentalWeight region).name) ++
  StableToken.default.timeframeWeights.keys.map (fun frame => (Slot.timeframeWeight frame).name) ++
  StableToken.default.smoothingWindows.keys.map fun frame => (Slot.smoothingWindow frame).name

theorem plain_or_mem_names {name : String} (h : NameInUse .default name) :
    Radix.Plain (Bytes.ofText name) ∨ name ∈ names := by
  cases h with
  | field field index => exact .inl (plain_slotName field index)
  | @slot slot h =>
    cases slot with
    | continentalWeight region =>
      exact .inr (List.mem_append_left _ (List.mem_append_left _ (List.mem_map_of_mem h)))
    | timeframeWeight frame =>
      exact .inr (List.mem_append_left _ (List.mem_append_right _ (List.mem_map_of_mem h)))
    | smoothingWindow frame => exact .inr (List.mem_append_right _ (List.mem_map_of_mem h))
    | _ => exact .inl (by decide +kernel)

theorem not_plain_of_mem_names {name : String} (h : name ∈ names) :
    ¬ Radix.Plain (Bytes.ofText name) ∧ 38 ^ 48 + (Bytes.ofText name).toNat < 256 ^ 32 := by
  revert name
  decide +kernel

theorem nodup_toNat_names : (names.map fun name => (Bytes.ofText name).toNat).Nodup := by
  decide +kernel

/-- The values of a plain name and of one with capitals. -/
theorem value_cases {name : String} (h : NameInUse .default name) :
    (Radix.Plain (Bytes.ofText name) ∧ value (Bytes.ofText name) = Radix.value (Bytes.ofText name)) ∨
    (name ∈ names ∧ value (Bytes.ofText name) = 38 ^ 48 + (Bytes.ofText name).toNat) := by
  rcases plain_or_mem_names h with hplain | hmem
  · exact .inl ⟨hplain, if_pos hplain⟩
  · exact .inr ⟨hmem, if_neg (not_plain_of_mem_names hmem).1⟩

theorem value_lt {name : String} (h : NameInUse .default name) :
    value (Bytes.ofText name) < 256 ^ 32 := by
  rcases value_cases h with ⟨hplain, hvalue⟩ | ⟨hmem, hvalue⟩
  · exact hvalue ▸ hplain.value_lt
  · exact hvalue ▸ (not_plain_of_mem_names hmem).2

theorem value_injective {a b : String} (ha : NameInUse .default a) (hb : NameInUse .default b)
    (h : value (Bytes.ofText a) = value (Bytes.ofText b)) : a = b := by
  rcases value_cases ha with ⟨hplain, hvalue⟩ | ⟨hmem, hvalue⟩ <;>
    rcases value_cases hb with ⟨hplain', hvalue'⟩ | ⟨hmem', hvalue'⟩
  · rw [hvalue, hvalue'] at h
    exact Bytes.ofText_injective (hplain.value_injective hplain' h)
  · have hlt := hplain.value_lt_pow
    omega
  · have hlt := hplain'.value_lt_pow
    omega
  · rw [hvalue, hvalue'] at h
    exact List.inj_on_of_nodup_map nodup_toNat_names hmem hmem' (Nat.add_left_cancel h)

theorem separates : @Digest.Separates digest .default := by
  intro a b ha hb h
  have hmod : value (Bytes.ofText a) % 256 ^ 32 = value (Bytes.ofText b) % 256 ^ 32 :=
    congrArg Hash.toNat h
  rw [Nat.mod_eq_of_lt (value_lt ha), Nat.mod_eq_of_lt (value_lt hb)] at hmod
  exact value_injective ha hb hmod

end StableSupply.Capitals
