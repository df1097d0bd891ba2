import StableSupply.Proofs.Journal
import StableSupply.Proofs.Slot.Radix

/-! # Appending and reading are inverse

Where nothing is refused an append either fails and changes nothing, or it makes the writes of the
record at the next index (`Journal.apply_append`), and these are a function of what the counter holds
alone: older words in the slots of the record do not matter. On a digest that keeps names apart the
record is then read back at its index, and at every other index what was read before
(`Journal.append_read`). -/

namespace StableSupply

namespace Journal

section

variable [Digest]

/-! ## Where nothing is refused -/

omit [Digest] in
theorem not_refused_openGate {e : JournalError} : ¬ Refused OpenGate e := by
  rintro ⟨c, -, hrefusal⟩
  exact Gate.openGate_not_refusal hrefusal

theorem read_open (account : Address) (index : UInt64) (s : Access OpenGate) :
    ((read account index).apply s).1 = recordAt account index s.ledger.state :=
  (read_answers account index).apply_open s.gate

theorem count_open (account : Address) (s : Access OpenGate) :
    ((count account).apply s).1 = countIn account s.ledger.state :=
  (count_answers account).apply_open s.gate

/-- What an append comes to. -/
theorem apply_append (account : Address) (record : HistoryRecord) (s : Access OpenGate) :
    (append account record).apply s =
      match nextIndex account record.kind s.ledger.state with
      | .ok n => (.ok { record with index := n },
          { s with ledger := s.ledger.setSlots (recordWrites account { record with index := n }) })
      | .error e => (.error e, s) := by
  have happend := append_ensures account record (s := s)
  rcases hresult : (append account record).apply s with ⟨e | r, s'⟩
  · rcases happend.of_error hresult with ⟨hledger, hnext⟩ | ⟨hrefused, -⟩
    · rw [hnext]
      show (Except.error e, (⟨s'.ledger, s.gate⟩ : Access OpenGate)) = (.error e, s)
      rw [hledger]
    · exact absurd hrefused not_refused_openGate
  · obtain ⟨n, hnext, rfl, hledger⟩ := happend.of_ok hresult
    rw [hnext]
    show (Except.ok _, (⟨s'.ledger, s.gate⟩ : Access OpenGate)) = _
    rw [hledger]

/-! ## One append -/

/-- The slots of a record and the counter. -/
def Touches (account : Address) (index : UInt64) (owner : Address) (key : Hash) : Prop :=
  owner = account ∧ (key = Slot.historyCount.key ∨ ∃ field : HistoryField, key = field.key index)

/-- The record was appended at the index. -/
structure Appended (account : Address) (record : HistoryRecord) (index : UInt64)
    (s s' : Access OpenGate) : Prop where
  counter : s'.ledger.state.slot account Slot.historyCount.key = .ofUInt64 (index + 1)
  count : ((count account).apply s').1 = .ok (index + 1)
  readBack : ((read account index).apply s').1 = .ok { record with index }
  others : ∀ i, i ≠ index → ((read account i).apply s').1 = ((read account i).apply s).1
  slots : ∀ owner key, ¬ Touches account index owner key →
    s'.ledger.state.slot owner key = s.ledger.state.slot owner key
  balances : ∀ other, s'.ledger.state.balance other = s.ledger.state.balance other
  checkpoints : s'.ledger.checkpoints = s.ledger.checkpoints

section Appending

variable {account : Address} {record : HistoryRecord} {n : UInt64}

/-- No write of a record goes to a place that the record does not touch. -/
theorem place_ne_of_not_touches {owner : Address} {key : Hash}
    (h : ¬ Touches account record.index owner key) :
    ∀ w ∈ recordWrites account record, w.place ≠ (owner, key) := by
  intro w hw hplace
  rcases mem_recordWrites.1 hw with ⟨field, rfl⟩ | rfl
  · obtain ⟨rfl, rfl⟩ := Prod.mk.inj hplace
    exact h ⟨rfl, .inr ⟨field, rfl⟩⟩
  · obtain ⟨rfl, rfl⟩ := Prod.mk.inj hplace
    exact h ⟨rfl, .inl rfl⟩

/-- The writes of a record are what it takes to append it. -/
theorem appended_setSlots {token : StableToken} (hsep : Digest.Separates token)
    (hkind : record.kind ≠ .none) (s : Access OpenGate) :
    Appended account record n s
      { s with ledger := s.ledger.setSlots (recordWrites account { record with index := n }) } where
  counter := slot_recordWrites_counter hsep
  count := (count_open ..).trans (countIn_recordWrites hsep)
  readBack := (read_open ..).trans (recordAt_recordWrites hsep hkind)
  others i hi := by
    rw [read_open, read_open]
    refine recordAt_congr fun field => ?_
    exact State.slot_setSlots_of_notMem (slot_recordWrites_other hsep hi field)
  slots owner key h := State.slot_setSlots_of_notMem (place_ne_of_not_touches h)
  balances other := State.balance_setSlots ..
  checkpoints := rfl

theorem countIn_of_toUInt64 {s : State}
    (hcount : (s.slot account Slot.historyCount.key).toUInt64 = .ok n) :
    countIn account s = .ok n := by
  rw [countIn, hcount]
  rfl

end Appending

/-! ## Appending and reading -/

/-- A record is appended at the index that the counter holds, whatever its slots held, and read back
there. What is no record, and what finds no index, is not appended and changes nothing. -/
theorem append_read {token : StableToken} (hsep : Digest.Separates token) (account : Address)
    (record : HistoryRecord) (s : Access OpenGate) :
    (∀ n, record.kind ≠ .none →
      (s.ledger.state.slot account Slot.historyCount.key).toUInt64 = .ok n →
      n.toNat < 2 ^ 64 - 1 →
      ∃ s', (append account record).apply s = (.ok { record with index := n }, s') ∧
        Appended account record n s s') ∧
    (record.kind = .none →
      (append account record).apply s = (.error (.unrecordable .none), s)) ∧
    (∀ e, record.kind ≠ .none →
      (s.ledger.state.slot account Slot.historyCount.key).toUInt64 = .error e →
      (append account record).apply s =
        (.error (.corrupted 0 ("history counter: " ++ e.message)), s)) ∧
    (∀ n, record.kind ≠ .none →
      (s.ledger.state.slot account Slot.historyCount.key).toUInt64 = .ok n →
      n.toNat = 2 ^ 64 - 1 →
      (append account record).apply s = (.error (.corrupted n "history counter exhausted"), s)) := by
  refine ⟨fun n hkind hcount hlt => ?_, fun hkind => ?_, fun e hkind hcount => ?_,
    fun n hkind hcount hlast => ?_⟩
  · have hnext : nextIndex account record.kind s.ledger.state = .ok n :=
      nextIndex_eq_ok.2 ⟨hkind, countIn_of_toUInt64 hcount, by omega⟩
    exact ⟨_, by rw [apply_append, hnext], appended_setSlots hsep hkind s⟩
  · rw [apply_append, nextIndex, if_pos hkind, hkind]
  · have hcounted : countIn account s.ledger.state =
        .error (.corrupted 0 ("history counter: " ++ e.message)) := by
      rw [countIn, hcount]
      rfl
    rw [apply_append, nextIndex, if_neg hkind, hcounted]
  · have hfull : ¬ n.toNat + 1 < 2 ^ 64 := by omega
    have hnext : nextIndex account record.kind s.ledger.state =
        .error (.corrupted n "history counter exhausted") := by
      rw [nextIndex, if_neg hkind, countIn_of_toUInt64 hcount]
      exact if_neg hfull
    rw [apply_append, hnext]

end

/-! ## The last record -/

/-- The highest index a record can have. -/
def lastIndex : UInt64 := 18446744073709551614

/-- The last index is next, and the slots of its record are not empty. -/
def leftover : List SlotWrite :=
  [⟨SystemAccount.stableToken, @Slot.key Radix.digest .historyCount, .ofUInt64 lastIndex⟩,
   ⟨SystemAccount.stableToken, @HistoryField.key Radix.digest .supplyDelta lastIndex, units 7⟩,
   ⟨SystemAccount.stableToken, @HistoryField.key Radix.digest .deviation lastIndex, .ofInt64 (-7)⟩]

def leftoverAccess : Access OpenGate :=
  ⟨⟨State.empty.setSlots leftover, [], .empty⟩, {}⟩

/-- The lowest deviation and the latest time. -/
def utmost : HistoryRecord where
  index := 0
  kind := .contraction
  supplyDelta := .zero
  counterpart := .zero
  deviationBps := Int64.minValue
  resultingSupply := .zero
  claimedSupply := .zero
  timestamp := 18446744073709551615

/-- The words left over do not come back, and the journal is then full. -/
theorem append_read_leftover :
    @Digest.Separates Radix.digest Radix.token ∧
    ∃ s', (@append _ Radix.digest _ SystemAccount.stableToken utmost).apply leftoverAccess =
        (.ok { utmost with index := lastIndex }, s') ∧
      ((@read _ Radix.digest _ SystemAccount.stableToken lastIndex).apply s').1 =
        .ok { utmost with index := lastIndex } ∧
      (@append _ Radix.digest _ SystemAccount.stableToken utmost).apply s' =
        (.error (.corrupted (lastIndex + 1) "history counter exhausted"), s') := by
  let : Digest := Radix.digest
  obtain ⟨happend, -⟩ := append_read Radix.separates SystemAccount.stableToken utmost leftoverAccess
  have hcount : (leftoverAccess.ledger.state.slot SystemAccount.stableToken
      Slot.historyCount.key).toUInt64 = .ok lastIndex := by decide +kernel
  obtain ⟨s', hs', happended⟩ := happend lastIndex nofun hcount (by decide)
  obtain ⟨-, -, -, hfull⟩ := append_read Radix.separates SystemAccount.stableToken utmost s'
  refine ⟨Radix.separates, s', hs', happended.readBack, hfull _ nofun ?_ (by decide)⟩
  rw [happended.counter, Word.toUInt64_ofUInt64]

end Journal

end StableSupply
