import Mathlib.Data.List.Nodup
import StableSupply.Proofs.Bytes
import StableSupply.Slot
import StableSupply.Token

/-! # Names of slots

Different slots have different names: `Slot.name_injective`, `HistoryField.slotName_injective` and
`HistoryField.slotName_ne_name`, together `NamedSlot.names_apart`. What remains to be asked of a
digest is that it keeps the names in use apart (`Digest.Separates`); then the keys of different slots
are different.

A name is told from the others by its first letters. The slots with an argument form three families,
each with a beginning of its own, and of the others only the counter of the history begins like the
names of records. -/

namespace StableSupply

/-- The first three characters. -/
private def lead (text : String) : List Char := text.toList.take 3

private theorem lead_append {a b : String} (h : 3 ≤ a.toList.length) : lead (a ++ b) = lead a := by
  rw [lead, String.toList_append, List.take_append_of_le_length h, lead]

/-! ## Slots -/

/-- The slots that take an argument. -/
inductive SlotFamily
  | continental
  | timeframe
  | smoothing

namespace SlotFamily

/-- The slot of the family with this argument. -/
def slot : SlotFamily → String → Slot
  | continental => .continentalWeight
  | timeframe => .timeframeWeight
  | smoothing => .smoothingWindow

/-- What the names of the family begin with. -/
def label : SlotFamily → String
  | continental => "continental_weight_"
  | timeframe => "timeframe_weight_"
  | smoothing => "smoothing_window_"

theorem name_slot (f : SlotFamily) (argument : String) :
    (f.slot argument).name = f.label ++ argument := by cases f <;> rfl

private theorem lead_name (f : SlotFamily) (argument : String) :
    lead (f.slot argument).name = lead f.label := by
  rw [name_slot, lead_append (by cases f <;> decide)]

private theorem lead_label_injective {f g : SlotFamily} (h : lead f.label = lead g.label) :
    f = g := by
  cases f <;> cases g <;> first | rfl | exact absurd h (by decide)

end SlotFamily

namespace Slot

/-- The slots without an argument. -/
private def fixed : List Slot :=
  [tokenName, tokenSymbol, tokenDecimals, initialSupply, currentSupply, minimumSupply,
   updateFrequency, initialValue, currentValue, targetValue, lastUpdateTime, marketVolatility,
   historyCount, treasuryAddress, valueTokenPrice, valueTokenName, valueTokenSymbol,
   valueTokenDecimals, valueMaxSupply, stakingReward, minimumStakingPeriod, stakingUnlockPeriod,
   totalStaked, lastRewardBlock]

private theorem fixed_or (slot : Slot) :
    slot ∈ fixed ∨ ∃ (f : SlotFamily) (argument : String), slot = f.slot argument := by
  cases slot with
  | continentalWeight region => exact .inr ⟨.continental, region, rfl⟩
  | timeframeWeight frame => exact .inr ⟨.timeframe, frame, rfl⟩
  | smoothingWindow frame => exact .inr ⟨.smoothing, frame, rfl⟩
  | _ => exact .inl (by decide +kernel)

private theorem nodup_names_fixed : (fixed.map name).Nodup := by decide +kernel

private theorem lead_name_fixed {slot : Slot} (h : slot ∈ fixed) (f : SlotFamily) :
    lead slot.name ≠ lead f.label := by
  cases f <;> revert slot <;> decide +kernel

theorem name_injective {a b : Slot} (h : a.name = b.name) : a = b := by
  have hl : lead a.name = lead b.name := congrArg lead h
  rcases a.fixed_or with ha | ⟨f, r, rfl⟩ <;> rcases b.fixed_or with hb | ⟨g, s, rfl⟩
  · exact List.inj_on_of_nodup_map nodup_names_fixed ha hb h
  · exact absurd (hl.trans (g.lead_name s)) (lead_name_fixed ha g)
  · exact absurd (hl.symm.trans (f.lead_name r)) (lead_name_fixed hb f)
  · rw [f.lead_name, g.lead_name] at hl
    obtain rfl := SlotFamily.lead_label_injective hl
    rw [f.name_slot, f.name_slot, String.append_right_inj] at h
    rw [h]

end Slot

/-! ## Fields of history records -/

namespace HistoryField

theorem mem_all (field : HistoryField) : field ∈ all := by cases field <;> decide

theorem label_injective {f g : HistoryField} (h : f.label = g.label) : f = g := by
  cases f <;> cases g <;> first | rfl | exact absurd h (by decide)

theorem toList_slotName (field : HistoryField) (index : UInt64) :
    (field.slotName index).toList =
      "adjustment_".toList ++ Nat.toDigits 10 index.toNat ++ '_' :: field.label.toList := by
  simp only [slotName, String.toList_append, Nat.toString_eq_repr, Nat.toList_repr]
  rw [List.append_assoc]
  rfl

private theorem split_at_mark {a b c d : List Char} (ha : '_' ∉ a) (hc : '_' ∉ c)
    (h : a ++ '_' :: b = c ++ '_' :: d) : a = c ∧ b = d := by
  induction a generalizing c with
  | nil =>
    cases c with
    | nil => exact ⟨rfl, (List.cons.inj h).2⟩
    | cons x c => exact absurd (List.cons.inj h).1 fun hx => hc (hx ▸ List.mem_cons_self)
  | cons y a ih =>
    cases c with
    | nil => exact absurd (List.cons.inj h).1.symm fun hy => ha (hy ▸ List.mem_cons_self)
    | cons x c =>
      obtain ⟨rfl, ht⟩ := List.cons.inj h
      obtain ⟨rfl, hbd⟩ := ih (fun hm => ha (List.mem_cons_of_mem _ hm))
        (fun hm => hc (List.mem_cons_of_mem _ hm)) ht
      exact ⟨rfl, hbd⟩

theorem slotName_injective {f g : HistoryField} {i j : UInt64} (h : f.slotName i = g.slotName j) :
    f = g ∧ i = j := by
  have hl := congrArg String.toList h
  rw [toList_slotName, toList_slotName, List.append_assoc, List.append_assoc,
    List.append_cancel_left_eq] at hl
  obtain ⟨hd, hf⟩ := split_at_mark Nat.underscore_not_in_toDigits Nat.underscore_not_in_toDigits hl
  refine ⟨label_injective (String.toList_inj.1 hf), UInt64.toNat_inj.1 ?_⟩
  rw [← Nat.ofDigitChars_ten_toDigits (n := i.toNat), hd, Nat.ofDigitChars_ten_toDigits]

/-- The character after the beginning that the names of all records share. -/
private def numberStart (text : String) : Option Char := (text.toList.drop 11).head?

private theorem numberStart_slotName (field : HistoryField) (index : UInt64) :
    ∃ c, numberStart (field.slotName index) = some c ∧ c.isDigit := by
  obtain ⟨c, rest, hd⟩ :=
    List.exists_cons_of_ne_nil (Nat.toDigits_ne_nil (b := 10) (n := index.toNat))
  refine ⟨c, ?_, Nat.isDigit_of_mem_toDigits (by decide) (by decide) (hd ▸ List.mem_cons_self)⟩
  rw [numberStart, toList_slotName, hd]
  rfl

private theorem lead_slotName (field : HistoryField) (index : UInt64) :
    lead (field.slotName index) = ['a', 'd', 'j'] := by
  rw [lead, toList_slotName]
  rfl

/-- No name without an argument has a digit where the names of records have their number. -/
private theorem numberStart_fixed : ∀ slot ∈ Slot.fixed, lead slot.name = ['a', 'd', 'j'] →
    ((numberStart slot.name).any Char.isDigit) = false := by decide +kernel

theorem slotName_ne_name (field : HistoryField) (index : UInt64) (slot : Slot) :
    field.slotName index ≠ slot.name := by
  intro h
  have hl := field.lead_slotName index
  rcases slot.fixed_or with hs | ⟨f, argument, rfl⟩
  · obtain ⟨c, hc, hdigit⟩ := field.numberStart_slotName index
    rw [h] at hl hc
    have := numberStart_fixed slot hs hl
    rw [hc, Option.any_some, hdigit] at this
    cases this
  · rw [h, f.lead_name] at hl
    cases f <;> exact absurd hl (by decide)

end HistoryField

/-! ## The layout -/

/-- What has a slot of its own: a parameter, and each field of each record of the history. -/
inductive NamedSlot
  | parameter (slot : Slot)
  | record (field : HistoryField) (index : UInt64)

namespace NamedSlot

/-- The name that the slot goes by. -/
def name : NamedSlot → String
  | parameter slot => slot.name
  | record field index => field.slotName index

theorem name_inj {a b : NamedSlot} : a.name = b.name ↔ a = b := by
  refine ⟨fun h => ?_, fun h => h ▸ rfl⟩
  cases a with
  | parameter slot =>
    cases b with
    | parameter slot' => exact congrArg parameter (Slot.name_injective h)
    | record field index => exact absurd h.symm (field.slotName_ne_name index slot)
  | record field index =>
    cases b with
    | parameter slot => exact absurd h (field.slotName_ne_name index slot)
    | record field' index' =>
      obtain ⟨rfl, rfl⟩ := HistoryField.slotName_injective h
      rfl

/-- No two slots share a name, whatever the regions and timeframes are called, and so no two keys are
digests of the same bytes. -/
theorem names_apart :
    (∀ a b : Slot, a.name = b.name ↔ a = b) ∧
    (∀ (f g : HistoryField) (i j : UInt64), f.slotName i = g.slotName j ↔ f = g ∧ i = j) ∧
    (∀ (f : HistoryField) (i : UInt64) (slot : Slot), f.slotName i ≠ slot.name) ∧
    ∀ a b : NamedSlot, Bytes.ofText a.name = Bytes.ofText b.name ↔ a = b := by
  refine ⟨fun a b => ⟨Slot.name_injective, fun h => h ▸ rfl⟩, fun f g i j => ⟨?_, ?_⟩,
    HistoryField.slotName_ne_name, fun a b => ?_⟩
  · exact HistoryField.slotName_injective
  · rintro ⟨rfl, rfl⟩
    rfl
  · rw [← name_inj]
    exact ⟨Bytes.ofText_injective, congrArg Bytes.ofText⟩

end NamedSlot

/-! ## Digests that keep names apart -/

/-- The slot exists on a ledger that was seeded for the token. -/
def Slot.InUse (token : StableToken) : Slot → Prop
  | continentalWeight region => region ∈ token.continentalWeights.keys
  | timeframeWeight frame => frame ∈ token.timeframeWeights.keys
  | smoothingWindow frame => frame ∈ token.smoothingWindows.keys
  | _ => True

namespace Slot

variable {token : StableToken}

theorem inUse_currentSupply : currentSupply.InUse token := trivial

theorem inUse_minimumSupply : minimumSupply.InUse token := trivial

theorem inUse_historyCount : historyCount.InUse token := trivial

end Slot

/-- The names of slots on a ledger that was seeded for the token. -/
inductive NameInUse (token : StableToken) : String → Prop
  | slot {slot : Slot} (h : slot.InUse token) : NameInUse token slot.name
  | field (field : HistoryField) (index : UInt64) : NameInUse token (field.slotName index)

/-- Different names in use have different digests. -/
def Digest.Separates [Digest] (token : StableToken) : Prop :=
  ∀ {a b : String}, NameInUse token a → NameInUse token b → Hash.ofName a = Hash.ofName b → a = b

namespace Digest.Separates

variable [Digest] {token : StableToken}

theorem key_injective (h : Digest.Separates token) {s t : Slot} (hs : s.InUse token)
    (ht : t.InUse token) (hk : s.key = t.key) : s = t :=
  Slot.name_injective (h (.slot hs) (.slot ht) hk)

theorem fieldKey_injective (h : Digest.Separates token) {f g : HistoryField} {i j : UInt64}
    (hk : f.key i = g.key j) : f = g ∧ i = j :=
  HistoryField.slotName_injective (h (.field f i) (.field g j) hk)

theorem fieldKey_ne_key (h : Digest.Separates token) {s : Slot} (hs : s.InUse token)
    (f : HistoryField) (i : UInt64) : f.key i ≠ s.key := fun hk =>
  HistoryField.slotName_ne_name f i s (h (.field f i) (.slot hs) hk)

end Digest.Separates

end StableSupply
