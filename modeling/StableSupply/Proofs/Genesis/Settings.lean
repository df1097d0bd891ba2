import StableSupply.Proofs.Ledger.Requests
import StableSupply.Proofs.ShortText
import StableSupply.Proofs.Slot.Names
import StableSupply.Proofs.Table

/-! # Settings

The configuration gives every named slot a setting (`Genesis.settings`), and no slot has two
(`Genesis.nodup_settings`). A list of parameters `Encodes` the settings if it has their words. On a
digest that keeps names apart each parameter goes to a place of its own, so that after all of them
are written every slot reads back as its setting (`Genesis.Encodes.readFrom`). -/

namespace StableSupply

/-! ## Writes to places of their own -/

/-- Where no two writes go to one place, each of them is read back. -/
theorem State.slot_setSlots_of_nodup {ws : List SlotWrite}
    (hnodup : (ws.map SlotWrite.place).Nodup) (s : State) {w : SlotWrite} (hw : w ∈ ws) :
    (s.setSlots ws).slot w.owner w.key = w.word := by
  refine State.slot_setSlots_of_mem ⟨w, hw, rfl⟩ ?_
  intro v hv hplace
  rw [List.inj_on_of_nodup_map hnodup hv hw hplace]

/-! ## Settings -/

/-- What a slot is set to. -/
inductive Setting
  | amount (w : Word)
  | number (n : UInt64)
  | account (a : Address)
  | text (t : String)
  deriving DecidableEq

namespace Setting

/-- The word that a setting is written as, unless it is a text that is too long. -/
def encode : Setting → Except WordError Word
  | amount w => .ok w
  | number n => .ok (.ofUInt64 n)
  | account a => .ok (.ofAddress a)
  | text t => Word.ofShortText t

/-- The word is read as the setting. -/
def ReadFrom (word : Word) : Setting → Prop
  | amount w => word = w
  | number n => word.toUInt64 = .ok n
  | account a => word.toAddress = .ok a
  | text t => word.toShortText = .ok (trimNul t)

/-- A setting is read back from the word that it is encoded as. -/
theorem readFrom_of_encode {setting : Setting} {word : Word} (h : setting.encode = .ok word) :
    setting.ReadFrom word := by
  cases setting with
  | amount w => exact (Except.ok.inj h).symm
  | number n =>
    obtain rfl := Except.ok.inj h
    exact Word.toUInt64_ofUInt64 n
  | account a =>
    obtain rfl := Except.ok.inj h
    exact dif_pos a.isLt
  | text t => exact Word.toShortText_ofShortText h

end Setting

namespace Genesis

/-! ## The configuration by slots -/

/-- What is recorded of the value token. -/
def valueSettings (token : ValueToken) : List (Slot × Setting) :=
  [(.valueMaxSupply, .amount token.maxSupply),
   (.valueTokenName, .text token.name),
   (.valueTokenSymbol, .text token.symbol),
   (.valueTokenDecimals, .number token.decimals.toUInt64),
   (.valueTokenPrice, .amount (units 1))]

/-- The settings of the stable token's own slots. -/
def tokenSettings (token : StableToken) (treasury : Address) (now : UInt64) :
    List (Slot × Setting) :=
  [(.tokenName, .text token.name),
   (.tokenSymbol, .text token.symbol),
   (.tokenDecimals, .number token.decimals.toUInt64),
   (.initialSupply, .amount token.initialSupply),
   (.currentSupply, .amount token.initialSupply),
   (.minimumSupply, .amount token.minimumSupply),
   (.updateFrequency, .number token.updateFrequencySecs),
   (.initialValue, .amount token.initialValue),
   (.currentValue, .amount token.initialValue),
   (.targetValue, .amount token.initialValue),
   (.lastUpdateTime, .number now),
   (.marketVolatility, .number token.initialVolatility.toUInt64),
   (.historyCount, .number 0),
   (.treasuryAddress, .account treasury)]

/-- A slot of the family for each entry of a map. -/
def mapSettings {ν : Type} (family : SlotFamily) (number : ν → UInt64) (t : Table String ν) :
    List (Slot × Setting) :=
  t.entries.map fun e => (family.slot e.1, .number (number e.2))

/-- What is recorded of the stable token, the entries of its maps last. -/
def stableSettings (token : StableToken) (treasury : Address) (now : UInt64) :
    List (Slot × Setting) :=
  tokenSettings token treasury now ++
    mapSettings .continental UInt8.toUInt64 token.continentalWeights ++
    mapSettings .timeframe UInt8.toUInt64 token.timeframeWeights ++
    mapSettings .smoothing UInt32.toUInt64 token.smoothingWindows

/-- What is recorded of staking. -/
def stakingSettings (staking : Staking) : List (Slot × Setting) :=
  [(.stakingReward, .number staking.rewardBps),
   (.minimumStakingPeriod, .number staking.minimumPeriod),
   (.stakingUnlockPeriod, .number staking.unlockPeriod),
   (.totalStaked, .amount .zero),
   (.lastRewardBlock, .number 0)]

/-- The setting of every named slot of the three system accounts. -/
def settings (value : ValueToken) (stable : StableToken) (staking : Staking) (treasury : Address)
    (now : UInt64) : List (Slot × Setting) :=
  valueSettings value ++ stableSettings stable treasury now ++ stakingSettings staking

/-- The parameters are the settings as words. -/
def Encodes (settings : List (Slot × Setting)) (parameters : List (Slot × Word)) : Prop :=
  List.Forall₂ (fun setting parameter =>
    setting.1 = parameter.1 ∧ setting.2.encode = .ok parameter.2) settings parameters

namespace Encodes

variable {settings : List (Slot × Setting)} {parameters : List (Slot × Word)}

theorem slots_eq (h : Encodes settings parameters) :
    parameters.map (·.1) = settings.map (·.1) := by
  induction h with
  | nil => rfl
  | cons hhead _ ih => rw [List.map_cons, List.map_cons, hhead.1, ih]

theorem exists_parameter (h : Encodes settings parameters) {slot : Slot} {setting : Setting}
    (hmem : (slot, setting) ∈ settings) :
    ∃ word, (slot, word) ∈ parameters ∧ setting.encode = .ok word := by
  induction h with
  | nil => cases hmem
  | @cons a b _ _ hhead _ ih =>
    rcases List.mem_cons.1 hmem with rfl | hmem
    · refine ⟨b.2, List.mem_cons.2 (.inl ?_), hhead.2⟩
      exact Prod.ext hhead.1 rfl
    · obtain ⟨word, hword, hencode⟩ := ih hmem
      exact ⟨word, List.mem_cons_of_mem _ hword, hencode⟩

theorem append {settings' : List (Slot × Setting)} {parameters' : List (Slot × Word)}
    (h : Encodes settings parameters) (h' : Encodes settings' parameters') :
    Encodes (settings ++ settings') (parameters ++ parameters') := by
  induction h with
  | nil => exact h'
  | cons hhead _ ih => exact .cons hhead ih

end Encodes

/-- The writes of a list of parameters. -/
def parameterWrites [Digest] (parameters : List (Slot × Word)) : List SlotWrite :=
  parameters.map fun p => p.1.set p.2

/-! ## Slots of the settings -/

/-- The family that a slot belongs to, if it takes an argument. -/
def family? : Slot → Option SlotFamily
  | .continentalWeight _ => some .continental
  | .timeframeWeight _ => some .timeframe
  | .smoothingWindow _ => some .smoothing
  | _ => none

theorem family?_slot (family : SlotFamily) (argument : String) :
    family? (family.slot argument) = some family := by cases family <;> rfl

/-- Different arguments lead to different slots of a family. -/
theorem slot_injective (family : SlotFamily) : Function.Injective family.slot := by
  intro a b h
  cases family with
  | continental => exact Slot.continentalWeight.inj h
  | timeframe => exact Slot.timeframeWeight.inj h
  | smoothing => exact Slot.smoothingWindow.inj h

/-- Slots of different families are different. -/
theorem nodup_append_of_family {l m : List Slot} (hl : l.Nodup) (hm : m.Nodup)
    (h : ∀ a ∈ l, ∀ b ∈ m, family? a ≠ family? b) : (l ++ m).Nodup :=
  List.nodup_append.2 ⟨hl, hm, fun a ha b hb hab => h a ha b hb (congrArg family? hab)⟩

section Maps

variable {ν : Type} (family : SlotFamily) (number : ν → UInt64) (t : Table String ν)

theorem slots_mapSettings :
    (mapSettings family number t).map (·.1) = t.keys.map family.slot := by
  simp only [mapSettings, Table.keys, List.map_map, Function.comp_def]

theorem nodup_mapSettings : ((mapSettings family number t).map (·.1)).Nodup := by
  rw [slots_mapSettings]
  exact t.nodup_keys.map (slot_injective family)

theorem family?_mapSettings : ∀ slot ∈ (mapSettings family number t).map (·.1),
    family? slot = some family := by
  intro slot hslot
  rw [slots_mapSettings] at hslot
  obtain ⟨argument, -, rfl⟩ := List.mem_map.1 hslot
  exact family?_slot family argument

end Maps

section Slots

variable (value : ValueToken) (stable : StableToken) (staking : Staking) (treasury : Address)
  (now : UInt64)

/-- The settings of the slots that take no argument. -/
def fixedSettings : List (Slot × Setting) :=
  valueSettings value ++ tokenSettings stable treasury now ++ stakingSettings staking

/-- The settings of the slots that do. -/
def mapsSettings : List (Slot × Setting) :=
  mapSettings .continental UInt8.toUInt64 stable.continentalWeights ++
    mapSettings .timeframe UInt8.toUInt64 stable.timeframeWeights ++
    mapSettings .smoothing UInt32.toUInt64 stable.smoothingWindows

/-- The settings are those with a slot of their own, and those of the maps. -/
theorem perm_settings : (settings value stable staking treasury now).Perm
    (fixedSettings value stable staking treasury now ++ mapsSettings stable) := by
  simp only [settings, stableSettings, fixedSettings, mapsSettings, List.append_assoc]
  refine (List.Perm.refl _).append ((List.Perm.refl _).append ?_)
  rw [← List.append_assoc, ← List.append_assoc, ← List.append_assoc (mapSettings ..)]
  exact List.perm_append_comm

theorem nodup_fixedSettings :
    ((fixedSettings value stable staking treasury now).map (·.1)).Nodup := by
  simp only [fixedSettings, valueSettings, tokenSettings, stakingSettings, List.cons_append,
    List.nil_append, List.map_cons, List.map_nil]
  decide

/-- Every slot without an argument has a setting of its own. -/
theorem mem_fixedSettings_iff {slot : Slot} :
    slot ∈ (fixedSettings value stable staking treasury now).map (·.1) ↔ family? slot = none := by
  simp only [fixedSettings, valueSettings, tokenSettings, stakingSettings, List.cons_append,
    List.nil_append, List.map_cons, List.map_nil]
  cases slot with
  | continentalWeight region => simp [family?]
  | timeframeWeight frame => simp [family?]
  | smoothingWindow frame => simp [family?]
  | _ => decide

theorem nodup_mapsSettings : ((mapsSettings stable).map (·.1)).Nodup := by
  rw [mapsSettings, List.map_append, List.map_append]
  refine nodup_append_of_family (nodup_append_of_family (nodup_mapSettings ..)
    (nodup_mapSettings ..) ?_) (nodup_mapSettings ..) ?_
  · intro a ha b hb
    rw [family?_mapSettings _ _ _ a ha, family?_mapSettings _ _ _ b hb]
    nofun
  · intro a ha b hb
    rw [family?_mapSettings _ _ _ b hb]
    rcases List.mem_append.1 ha with ha | ha
    · rw [family?_mapSettings _ _ _ a ha]
      nofun
    · rw [family?_mapSettings _ _ _ a ha]
      nofun

/-- The slots with an argument that have a setting are those in use. -/
theorem mem_mapsSettings_iff {slot : Slot} :
    slot ∈ (mapsSettings stable).map (·.1) ↔ family? slot ≠ none ∧ slot.InUse stable := by
  simp only [mapsSettings, List.map_append, slots_mapSettings, List.mem_append, List.mem_map]
  cases slot with
  | continentalWeight region => simp [family?, SlotFamily.slot, Slot.InUse]
  | timeframeWeight frame => simp [family?, SlotFamily.slot, Slot.InUse]
  | smoothingWindow frame => simp [family?, SlotFamily.slot, Slot.InUse]
  | _ => simp [family?, SlotFamily.slot]

/-- No slot has two settings. -/
theorem nodup_settings : ((settings value stable staking treasury now).map (·.1)).Nodup := by
  rw [((perm_settings value stable staking treasury now).map (·.1)).nodup_iff, List.map_append]
  refine nodup_append_of_family (nodup_fixedSettings ..) (nodup_mapsSettings stable) ?_
  intro a ha b hb
  rw [(mem_fixedSettings_iff ..).1 ha]
  exact Ne.symm ((mem_mapsSettings_iff stable).1 hb).1

/-- A slot has a setting if it is in use. -/
theorem mem_settings_iff {slot : Slot} :
    slot ∈ (settings value stable staking treasury now).map (·.1) ↔ slot.InUse stable := by
  rw [((perm_settings value stable staking treasury now).map (·.1)).mem_iff, List.map_append,
    List.mem_append, mem_fixedSettings_iff, mem_mapsSettings_iff]
  constructor
  · rintro (hfixed | ⟨-, huse⟩)
    · cases slot with
      | continentalWeight region => cases hfixed
      | timeframeWeight frame => cases hfixed
      | smoothingWindow frame => cases hfixed
      | _ => trivial
    · exact huse
  · intro huse
    by_cases hfixed : family? slot = none
    · exact .inl hfixed
    · exact .inr ⟨hfixed, huse⟩

end Slots

/-! ## Reading the settings -/

section Reading

variable [Digest] {value : ValueToken} {stable : StableToken} {staking : Staking}
  {treasury : Address} {now : UInt64} {parameters : List (Slot × Word)}

/-- Where the settings are kept. -/
def places (settings : List (Slot × Setting)) : List (Address × Hash) :=
  settings.map fun p => (p.1.owner, p.1.key)

/-- On a digest that keeps names apart no two settings are kept in one place. -/
theorem nodup_places (hsep : Digest.Separates stable) :
    (places (settings value stable staking treasury now)).Nodup := by
  have hplaces : places (settings value stable staking treasury now) =
      ((settings value stable staking treasury now).map (·.1)).map
        fun slot => (slot.owner, slot.key) := by
    simp only [places, List.map_map, Function.comp_def]
  rw [hplaces]
  refine List.Nodup.map_on ?_ (nodup_settings value stable staking treasury now)
  intro a ha b hb hab
  exact hsep.key_injective ((mem_settings_iff ..).1 ha) ((mem_settings_iff ..).1 hb)
    (Prod.mk.inj hab).2

theorem Encodes.places_eq {settings : List (Slot × Setting)} (h : Encodes settings parameters) :
    (parameterWrites parameters).map SlotWrite.place = places settings := by
  have hplaces : places settings = (settings.map (·.1)).map fun slot => (slot.owner, slot.key) := by
    simp only [places, List.map_map, Function.comp_def]
  rw [hplaces, ← h.slots_eq, parameterWrites, List.map_map, List.map_map]
  rfl

/-- After all parameters are written, the slot of a setting holds its word. -/
theorem Encodes.word_eq (hsep : Digest.Separates stable)
    (h : Encodes (settings value stable staking treasury now) parameters) (s : State) (slot : Slot)
    (setting : Setting) (hmem : (slot, setting) ∈ settings value stable staking treasury now)
    {word : Word} (hword : setting.encode = .ok word) :
    slot.word (s.setSlots (parameterWrites parameters)) = word := by
  obtain ⟨other, hother, hencode⟩ := h.exists_parameter hmem
  obtain rfl := Except.ok.inj (hword.symm.trans hencode)
  have hnodup : ((parameterWrites parameters).map SlotWrite.place).Nodup := by
    rw [h.places_eq]
    exact nodup_places hsep
  exact State.slot_setSlots_of_nodup hnodup s (w := slot.set word) (List.mem_map_of_mem hother)

/-- After all parameters are written, every setting is read back from its slot. -/
theorem Encodes.readFrom (hsep : Digest.Separates stable)
    (h : Encodes (settings value stable staking treasury now) parameters) (s : State) (slot : Slot)
    (setting : Setting) (hmem : (slot, setting) ∈ settings value stable staking treasury now) :
    setting.ReadFrom (slot.word (s.setSlots (parameterWrites parameters))) := by
  obtain ⟨word, -, hword⟩ := h.exists_parameter hmem
  rw [h.word_eq hsep s slot setting hmem hword]
  exact Setting.readFrom_of_encode hword

/-- Slots without a setting stay. -/
theorem Encodes.slot_eq {settings : List (Slot × Setting)} (h : Encodes settings parameters)
    (s : State) {owner : Address} {key : Hash} (hnot : (owner, key) ∉ places settings) :
    (s.setSlots (parameterWrites parameters)).slot owner key = s.slot owner key := by
  rw [← h.places_eq] at hnot
  apply State.slot_setSlots_of_notMem
  intro w hw hplace
  exact hnot (hplace ▸ List.mem_map_of_mem hw)

end Reading

end Genesis

end StableSupply
