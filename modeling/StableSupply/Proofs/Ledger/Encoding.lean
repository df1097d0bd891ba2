import StableSupply.Proofs.Address
import StableSupply.Proofs.Ledger.Plain
import StableSupply.Proofs.Slot.Radix

/-! # What the encoding of a state tells

The encoding writes accounts, owners and slots one after another and says nowhere how many there
are. Together with these numbers it determines the state (`State.eq_of_encode_eq`); two states of
different numbers can have the same encoding (`Bench.encode_shared`). The other way round, a state
is determined by what can be read of it and by the accounts and owners that it records
(`State.Clean.eq_of_contents_eq`); those that only zero can be read of are encoded as well
(`Bench.encode_residue`). -/

namespace StableSupply

/-! ## Fixed widths -/

namespace Hash

@[simp] theorem length_toBytes (h : Hash) : h.toBytes.length = 32 := Bytes.length_ofNat ..

theorem toBytes_injective : Function.Injective toBytes := by
  rintro ⟨a, ha⟩ ⟨b, hb⟩ h
  rw [mk.injEq]
  exact (Bytes.ofNat_inj ha hb).1 h

end Hash

/-- Entries of one width are told apart from each other and from what follows, if it is known how
many there are. -/
theorem flatMap_append_inj {α : Type} {f : α → Bytes} {width : Nat}
    (hwidth : ∀ a, (f a).length = width) (hf : Function.Injective f) {l m : List α}
    {rest rest' : Bytes} (hlength : l.length = m.length)
    (h : l.flatMap f ++ rest = m.flatMap f ++ rest') : l = m ∧ rest = rest' := by
  induction l generalizing m with
  | nil =>
    obtain rfl := List.length_eq_zero_iff.1 hlength.symm
    exact ⟨rfl, h⟩
  | cons a l ih =>
    obtain ⟨b, m, rfl⟩ := List.exists_cons_of_length_eq_add_one hlength.symm
    simp only [List.flatMap_cons, List.append_assoc] at h
    obtain ⟨hhead, htail⟩ := List.append_inj h ((hwidth a).trans (hwidth b).symm)
    obtain ⟨rfl, hrest⟩ := ih (Nat.succ.inj hlength) htail
    exact ⟨congrArg (· :: l) (hf hhead), hrest⟩

/-- A pair of fields of which the first has a fixed width. -/
theorem append_fields_injective {α β : Type} {f : α → Bytes} {g : β → Bytes} {width : Nat}
    (hwidth : ∀ a, (f a).length = width) (hf : Function.Injective f) (hg : Function.Injective g) :
    Function.Injective fun e : α × β => f e.1 ++ g e.2 := by
  rintro ⟨a, b⟩ ⟨a', b'⟩ h
  obtain ⟨ha, hb⟩ := List.append_inj h ((hwidth a).trans (hwidth a').symm)
  exact Prod.ext (hf ha) (hg hb)

namespace State

/-! ## From the encoding to the state -/

/-- The number of recorded accounts, and the numbers of slots of the recorded owners in order. -/
def shape (s : State) : Nat × List Nat :=
  (s.balances.size, s.storage.entries.map fun e => e.2.size)

/-- As many balances can be told from what follows them. -/
theorem encodeBalances_append_inj {b b' : Table Address Word} {rest rest' : Bytes}
    (hsize : b.size = b'.size)
    (h : encodeBalances b ++ rest = encodeBalances b' ++ rest') : b = b' ∧ rest = rest' := by
  have hwidth (e : Address × Word) : (e.1.toBytes ++ e.2.toBytes).length = 20 + 32 := by simp
  obtain ⟨hentries, hrest⟩ := flatMap_append_inj hwidth
    (append_fields_injective Address.length_toBytes Address.toBytes_injective
      Word.toBytes_injective) hsize h
  exact ⟨Table.entries_inj.1 hentries, hrest⟩

/-- As many slots can be told from what follows them. -/
theorem encodeSlots_append_inj {slots slots' : Table Hash Word} {rest rest' : Bytes}
    (hsize : slots.size = slots'.size)
    (h : encodeSlots slots ++ rest = encodeSlots slots' ++ rest') :
    slots = slots' ∧ rest = rest' := by
  have hwidth (e : Hash × Word) : (e.1.toBytes ++ e.2.toBytes).length = 32 + 32 := by simp
  obtain ⟨hentries, hrest⟩ := flatMap_append_inj hwidth
    (append_fields_injective Hash.length_toBytes Hash.toBytes_injective Word.toBytes_injective)
    hsize h
  exact ⟨Table.entries_inj.1 hentries, hrest⟩

/-- An owner, and its slots behind it. -/
def encodeOwner (e : Address × Table Hash Word) : Bytes := e.1.toBytes ++ encodeSlots e.2

theorem encode_eq (s : State) :
    s.encode = encodeBalances s.balances ++ s.storage.entries.flatMap encodeOwner := rfl

/-- Owners with as many slots each can be told apart. -/
theorem encodeOwners_inj {l m : List (Address × Table Hash Word)}
    (hsizes : l.map (fun e => e.2.size) = m.map fun e => e.2.size)
    (h : l.flatMap encodeOwner = m.flatMap encodeOwner) : l = m := by
  induction l generalizing m with
  | nil =>
    obtain rfl := List.map_eq_nil_iff.1 hsizes.symm
    rfl
  | cons e l ih =>
    cases m with
    | nil => cases hsizes
    | cons e' m =>
      obtain ⟨owner, slots⟩ := e
      obtain ⟨owner', slots'⟩ := e'
      obtain ⟨hsize, hrests⟩ := List.cons.inj hsizes
      simp only [List.flatMap_cons, encodeOwner, List.append_assoc] at h
      obtain ⟨howner, hafter⟩ := List.append_inj h
        ((Address.length_toBytes owner).trans (Address.length_toBytes owner').symm)
      obtain ⟨rfl, hrest⟩ := encodeSlots_append_inj hsize hafter
      obtain rfl := Address.toBytes_injective howner
      rw [ih hrests hrest]

/-- States of one shape are determined by their encoding. -/
theorem eq_of_encode_eq {s t : State} (hshape : s.shape = t.shape) (h : s.encode = t.encode) :
    s = t := by
  obtain ⟨hsize, hsizes⟩ := Prod.mk.inj hshape
  rw [encode_eq, encode_eq] at h
  obtain ⟨hbalances, howners⟩ := encodeBalances_append_inj hsize h
  have hstorage := Table.entries_inj.1 (encodeOwners_inj hsizes howners)
  cases s
  cases t
  rw [mk.injEq]
  exact ⟨hbalances, hstorage⟩

/-! ## From what can be read to the state -/

/-- The accounts and the owners that have an entry, in order. -/
def recorded (s : State) : List Address × List Address := (s.balances.keys, s.storage.keys)

/-- The recorded accounts and what they have determine the table of balances. -/
theorem balances_eq {s t : State} (hkeys : s.balances.keys = t.balances.keys)
    (h : s.balance = t.balance) : s.balances = t.balances := by
  refine Table.ext_find? fun account => ?_
  have hread : (s.balances.find? account).getD .zero = (t.balances.find? account).getD .zero :=
    congrFun h account
  have hsome := Table.isSome_find?_congr hkeys account
  cases hs : s.balances.find? account <;> cases ht : t.balances.find? account <;> simp_all

theorem Clean.slots_eq {s t : State} (hs : s.Clean) (ht : t.Clean) {owner : Address}
    (h : s.slot owner = t.slot owner) : s.slots owner = t.slots owner := by
  refine Table.ext_find? fun key => ?_
  have hread : ((s.slots owner).find? key).getD .zero = ((t.slots owner).find? key).getD .zero :=
    congrFun h key
  have hs := hs owner key
  have ht := ht owner key
  -- a slot that is kept for a word reads as that word, which is not zero
  cases hfs : (s.slots owner).find? key <;> cases hft : (t.slots owner).find? key <;>
    simp_all [eq_comm]

/-- The recorded owners and what their slots read determine the storage of a clean state. -/
theorem Clean.storage_eq {s t : State} (hs : s.Clean) (ht : t.Clean)
    (hkeys : s.storage.keys = t.storage.keys) (h : s.slot = t.slot) : s.storage = t.storage := by
  refine Table.ext_find? fun owner => ?_
  have hslots : (s.storage.find? owner).getD .empty = (t.storage.find? owner).getD .empty :=
    hs.slots_eq ht (congrFun h owner)
  have hsome := Table.isSome_find?_congr hkeys owner
  cases hfs : s.storage.find? owner <;> cases hft : t.storage.find? owner <;> simp_all

/-- What is recorded, and what it reads, determine a clean state. -/
theorem Clean.eq_of_contents_eq {s t : State} (hs : s.Clean) (ht : t.Clean)
    (hrecorded : s.recorded = t.recorded) (h : s.contents = t.contents) : s = t := by
  obtain ⟨haccounts, howners⟩ := Prod.mk.inj hrecorded
  obtain ⟨hbalance, hslot⟩ := Contents.mk.inj h
  have hbalances := balances_eq haccounts hbalance
  have hstorage := hs.storage_eq ht howners hslot
  cases s
  cases t
  rw [mk.injEq]
  exact ⟨hbalances, hstorage⟩

end State

/-! ## Histories -/

namespace Bench

/-- The state that a new ledger is brought to. -/
def reached (operations : List LedgerOperation) : State := (empty.run operations).2.ledger.state

/-- No state that is reached has a slot that holds zero. -/
theorem clean_reached (operations : List LedgerOperation) : (reached operations).Clean :=
  (Refines.empty.run operations).2.clean

/-- Two histories that end in the same balances and words, and in the same accounts and owners with
an entry, end in the same encoding and under the same root. -/
theorem root_of_reads [Digest] (operations operations' : List LedgerOperation)
    (hrecorded : (reached operations).recorded = (reached operations').recorded)
    (hbalance : ∀ account,
      (reached operations).balance account = (reached operations').balance account)
    (hslot : ∀ owner key,
      (reached operations).slot owner key = (reached operations').slot owner key) :
    (reached operations).encode = (reached operations').encode ∧
      (reached operations).root = (reached operations').root := by
  have hcontents : (reached operations).contents = (reached operations').contents := by
    rw [State.contents, State.contents, funext hbalance, funext fun owner => funext (hslot owner)]
  rw [(clean_reached operations).eq_of_contents_eq (clean_reached operations') hrecorded hcontents]
  exact ⟨rfl, rfl⟩

/-- A balance and a slot, each set at once. -/
def direct : List LedgerOperation :=
  [.setSlot ⟨7, by decide⟩ ⟨1, by decide⟩ (.ofUInt64 9), .credit ⟨7, by decide⟩ (.ofUInt64 5)]

/-- The same in parts, and with a detour that is reverted. -/
def roundabout : List LedgerOperation :=
  [.credit ⟨7, by decide⟩ (.ofUInt64 2), .setSlot ⟨7, by decide⟩ ⟨1, by decide⟩ (.ofUInt64 8),
   .checkpoint, .setBalance ⟨8, by decide⟩ (.ofUInt64 1),
   .setSlot ⟨8, by decide⟩ ⟨2, by decide⟩ (.ofUInt64 1), .revert 0,
   .setSlot ⟨7, by decide⟩ ⟨1, by decide⟩ (.ofUInt64 9), .credit ⟨7, by decide⟩ (.ofUInt64 3)]

theorem root_of_reads_roundabout :
    (reached roundabout).recorded = (reached direct).recorded ∧
    (∀ account, (reached roundabout).balance account = (reached direct).balance account) ∧
    (∀ owner key, (reached roundabout).slot owner key = (reached direct).slot owner key) ∧
    (reached roundabout).encode = (reached direct).encode := by
  have hsame : reached roundabout = reached direct := by decide +kernel
  have hrecorded : (reached roundabout).recorded = (reached direct).recorded := by rw [hsame]
  have hbalance (account : Address) :
      (reached roundabout).balance account = (reached direct).balance account := by rw [hsame]
  have hslot (owner : Address) (key : Hash) :
      (reached roundabout).slot owner key = (reached direct).slot owner key := by rw [hsame]
  have hroot := @root_of_reads Radix.digest roundabout direct hrecorded hbalance hslot
  exact ⟨hrecorded, hbalance, hslot, hroot.1⟩

/-- A slot is written and cleared, and an account is credited with nothing. -/
def undone : List LedgerOperation :=
  [.setSlot ⟨7, by decide⟩ ⟨1, by decide⟩ (.ofUInt64 9),
   .setSlot ⟨7, by decide⟩ ⟨1, by decide⟩ .zero, .credit ⟨7, by decide⟩ .zero]

/-- Nothing can be read that could not be read before, but the encoding has changed: the account and
the owner are recorded. -/
theorem encode_residue :
    (∀ account, (reached undone).balance account = (reached []).balance account) ∧
    (∀ owner key, (reached undone).slot owner key = (reached []).slot owner key) ∧
    (reached undone).encode ≠ (reached []).encode := by
  have hreached : reached undone = ((State.empty.setSlot ⟨7, by decide⟩ ⟨1, by decide⟩
      (.ofUInt64 9)).setSlot ⟨7, by decide⟩ ⟨1, by decide⟩ .zero).setBalance ⟨7, by decide⟩
        .zero := by
    decide +kernel
  refine ⟨fun account => ?_, fun owner key => ?_, by decide +kernel⟩
  · rw [hreached]
    by_cases haccount : account = ⟨7, by decide⟩
    · rw [haccount, State.balance_setBalance_self]
      rfl
    · rw [State.balance_setBalance_of_ne _ _ haccount, State.balance_setSlot,
        State.balance_setSlot]
      rfl
  · rw [hreached, State.slot_setBalance]
    by_cases hplace : (owner, key) = (⟨7, by decide⟩, ⟨1, by decide⟩)
    · obtain ⟨rfl, rfl⟩ := Prod.mk.inj hplace
      rw [State.slot_setSlot_self]
      rfl
    · rw [State.slot_setSlot_of_ne _ _ hplace, State.slot_setSlot_of_ne _ _ hplace]
      rfl

end Bench

namespace State

/-- States of one shape with the same encoding read the same everywhere. -/
theorem reads_of_encode_eq (s t : State) (hshape : s.shape = t.shape)
    (h : s.encode = t.encode) :
    (∀ account, s.balance account = t.balance account) ∧
      ∀ owner key, s.slot owner key = t.slot owner key := by
  obtain rfl := eq_of_encode_eq hshape h
  exact ⟨fun _ => rfl, fun _ _ => rfl⟩

theorem reads_of_encode_eq_roundabout :
    (Bench.reached Bench.roundabout).shape = (1, [1]) ∧
    (Bench.reached Bench.direct).shape = (1, [1]) ∧
    (Bench.reached Bench.roundabout).encode = (Bench.reached Bench.direct).encode ∧
    ∀ owner key, (Bench.reached Bench.roundabout).slot owner key =
      (Bench.reached Bench.direct).slot owner key := by
  have hshape : (Bench.reached Bench.roundabout).shape = (1, [1]) := by decide +kernel
  have hshape' : (Bench.reached Bench.direct).shape = (1, [1]) := by decide +kernel
  have hencode : (Bench.reached Bench.roundabout).encode = (Bench.reached Bench.direct).encode := by
    decide +kernel
  have hreads := reads_of_encode_eq _ _ (hshape.trans hshape'.symm) hencode
  exact ⟨hshape, hshape', hencode, hreads.2⟩

end State

/-- Three slots of two owners, one and two. -/
def Bench.oneAndTwo : List LedgerOperation :=
  [.setSlot .zero ⟨0, by decide⟩ (.ofUInt64 1),
   .setSlot (.system 1) ⟨1, by decide⟩ (.ofUInt64 1),
   .setSlot (.system 1) ⟨2, by decide⟩ (.ofUInt64 1)]

/-- Three slots of two owners, two and one. -/
def Bench.twoAndOne : List LedgerOperation :=
  [.setSlot .zero ⟨0, by decide⟩ (.ofUInt64 1),
   .setSlot .zero ⟨2 ^ 96, by decide⟩ ⟨2 ^ 96, by decide⟩,
   .setSlot (.system 1) ⟨2, by decide⟩ (.ofUInt64 1)]

/-- The second owner of the one state is read as the key of a slot in the other. -/
theorem Bench.encode_shared :
    (reached oneAndTwo).encode = (reached twoAndOne).encode ∧
      (reached oneAndTwo).slot .zero ⟨2 ^ 96, by decide⟩ ≠
        (reached twoAndOne).slot .zero ⟨2 ^ 96, by decide⟩ := by
  decide +kernel

end StableSupply
