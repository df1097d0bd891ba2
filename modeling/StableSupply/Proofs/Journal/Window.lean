import StableSupply.Manager
import StableSupply.Proofs.Journal.Append

/-! # The window of a query

A record can be read if its words are those of some record (`Journal.recordAt_eq_ok`), and then it is
that record. A query reads the last so many indices in order. It gives a record for each of them, or
else it fails at the first that cannot be read (`Journal.query_window`). -/

namespace StableSupply

namespace Journal

section Decoding

variable {α : Type} {index : UInt64} {what : String} {value : Except WordError α}

theorem decoded_eq_ok {a : α} : decoded index what value = .ok a ↔ value = .ok a := by
  unfold decoded Except.mapError
  cases value with
  | ok b => rw [Except.ok.injEq, Except.ok.injEq]
  | error e => exact ⟨nofun, nofun⟩

/-- A field that does not decode is reported with the index of its record. -/
theorem decoded_eq_error {e : JournalError} (h : decoded index what value = .error e) :
    ∃ reason, e = .corrupted index reason := by
  cases value with
  | ok b => cases h
  | error c => exact ⟨_, (Except.error.inj h).symm⟩

/-- The codes of the two kinds of adjustments, and no others, are read. -/
theorem recordedKind_eq_ok {code : UInt64} {kind : Kind} :
    recordedKind index code = .ok kind ↔ kind ≠ .none ∧ code = kind.code := by
  constructor
  · intro h
    unfold recordedKind at h
    split at h
    · next hcode =>
      obtain rfl := Except.ok.inj h
      exact ⟨nofun, Kind.ofCode?_eq_some.1 hcode⟩
    · next hcode =>
      obtain rfl := Except.ok.inj h
      exact ⟨nofun, Kind.ofCode?_eq_some.1 hcode⟩
    · cases h
  · rintro ⟨hkind, rfl⟩
    rw [recordedKind, Kind.ofCode?_code]
    cases kind with
    | none => exact absurd rfl hkind
    | expansion | contraction => rfl

theorem recordedKind_eq_error {code : UInt64} {e : JournalError}
    (h : recordedKind index code = .error e) : ∃ reason, e = .corrupted index reason := by
  unfold recordedKind at h
  split at h
  · cases h
  · cases h
  · exact ⟨_, (Except.error.inj h).symm⟩

end Decoding

section Windows

variable [Digest] {account : Address} {index : UInt64} {s s' : State}

/-! ## Records that can be read -/

/-- The words of the record decode: the code of a kind, a signed number of 64 bits, a time. -/
structure Readable (account : Address) (index : UInt64) (s : State) : Prop where
  kind : (s.slot account (HistoryField.kind.key index)).toNat = 1 ∨
    (s.slot account (HistoryField.kind.key index)).toNat = 2
  deviation : ∃ n : Int64, s.slot account (HistoryField.deviation.key index) = .ofInt64 n
  timestamp : (s.slot account (HistoryField.timestamp.key index)).toNat < 2 ^ 64

/-- A record is read where its own words are. -/
theorem recordAt_eq_ok {record : HistoryRecord} :
    recordAt account index s = .ok record ↔ record.index = index ∧ record.kind ≠ .none ∧
      ∀ field : HistoryField, s.slot account (field.key index) = fieldWord record field := by
  simp only [recordAt, bind_eq_ok, decoded_eq_ok, recordedKind_eq_ok, Word.toUInt64_eq_ok,
    Word.toInt64_eq_ok]
  constructor
  · rintro ⟨code, hcode, kind, ⟨hkind, rfl⟩, deviation, hdeviation, timestamp, htimestamp, hrecord⟩
    obtain rfl := Except.ok.inj hrecord
    refine ⟨rfl, hkind, fun field => ?_⟩
    cases field with
    | kind => exact hcode
    | deviation => exact hdeviation
    | timestamp => exact htimestamp
    | supplyDelta | counterpart | resultingSupply | claimedSupply => rfl
  · rintro ⟨rfl, hkind, hwords⟩
    refine ⟨_, hwords .kind, _, ⟨hkind, rfl⟩, _, hwords .deviation, _, hwords .timestamp, ?_⟩
    rw [hwords .supplyDelta, hwords .counterpart, hwords .resultingSupply, hwords .claimedSupply]
    rfl

/-- Whatever does not decode is reported with the index of the record. -/
theorem recordAt_eq_error {e : JournalError} (h : recordAt account index s = .error e) :
    ∃ reason, e = .corrupted index reason := by
  simp only [recordAt, bind_eq_error] at h
  rcases h with h | ⟨_, -, h | ⟨_, -, h | ⟨_, -, h | ⟨_, -, h⟩⟩⟩⟩
  · exact decoded_eq_error h
  · exact recordedKind_eq_error h
  · exact decoded_eq_error h
  · exact decoded_eq_error h
  · cases h

omit [Digest] in
/-- The codes of the kinds that are recorded. -/
theorem exists_kind {word : Word} :
    (∃ kind : Kind, kind ≠ .none ∧ word = .ofUInt64 kind.code) ↔
      word.toNat = 1 ∨ word.toNat = 2 := by
  constructor
  · rintro ⟨kind, hkind, rfl⟩
    cases kind with
    | none => exact absurd rfl hkind
    | expansion => exact .inl rfl
    | contraction => exact .inr rfl
  · rintro (hword | hword)
    · exact ⟨.expansion, nofun, Word.toNat_inj.1 hword⟩
    · exact ⟨.contraction, nofun, Word.toNat_inj.1 hword⟩

/-- A record can be read exactly if its kind, its deviation and its timestamp decode. -/
theorem readable_iff :
    Readable account index s ↔ ∃ record, recordAt account index s = .ok record := by
  constructor
  · rintro ⟨hkind, ⟨deviationBps, hdeviation⟩, htimestamp⟩
    obtain ⟨kind, hkind, hcode⟩ := exists_kind.2 hkind
    obtain ⟨timestamp, htimestamp⟩ := Word.exists_toUInt64.2 htimestamp
    let word (field : HistoryField) := s.slot account (field.key index)
    refine ⟨{ index, kind, deviationBps, timestamp
              supplyDelta := word .supplyDelta
              counterpart := word .counterpart
              resultingSupply := word .resultingSupply
              claimedSupply := word .claimedSupply }, recordAt_eq_ok.2 ⟨rfl, hkind, fun field => ?_⟩⟩
    cases field with
    | kind => exact hcode
    | deviation => exact hdeviation
    | timestamp => exact Word.toUInt64_eq_ok.1 htimestamp
    | supplyDelta | counterpart | resultingSupply | claimedSupply => rfl
  · rintro ⟨record, hrecord⟩
    obtain ⟨-, hkind, hwords⟩ := recordAt_eq_ok.1 hrecord
    refine ⟨exists_kind.1 ⟨record.kind, hkind, hwords .kind⟩, ⟨_, hwords .deviation⟩, ?_⟩
    rw [hwords .timestamp]
    exact record.timestamp.toNat_lt

/-! ## Records in a row -/

omit [Digest] in
theorem add_ofNat_zero (start : UInt64) : start + .ofNat 0 = start := UInt64.add_zero start

omit [Digest] in
theorem add_ofNat_succ (start : UInt64) (k : Nat) :
    start + .ofNat (k + 1) = start + 1 + .ofNat k := by
  rw [UInt64.ofNat_add, UInt64.add_assoc, UInt64.add_comm 1]
  rfl

/-- Consecutive records are read exactly if each of them is. -/
theorem recordsFrom_eq_ok {start : UInt64} {n : Nat} {records : List HistoryRecord} :
    recordsFrom account start n s = .ok records ↔ records.length = n ∧
      ∀ k (h : k < records.length), recordAt account (start + .ofNat k) s = .ok records[k] := by
  induction n generalizing start records with
  | zero =>
    constructor
    · intro h
      obtain rfl := Except.ok.inj h
      exact ⟨rfl, nofun⟩
    · rintro ⟨hlength, -⟩
      obtain rfl := List.length_eq_zero_iff.1 hlength
      rfl
  | succ n ih =>
    simp only [recordsFrom, bind_eq_ok, ih]
    constructor
    · rintro ⟨record, hrecord, rest, ⟨hlength, hrest⟩, hrecords⟩
      obtain rfl := Except.ok.inj hrecords
      refine ⟨congrArg (· + 1) hlength, fun k hk => ?_⟩
      cases k with
      | zero => rwa [add_ofNat_zero]
      | succ k =>
        rw [add_ofNat_succ]
        exact hrest k (Nat.lt_of_succ_lt_succ hk)
    · rintro ⟨hlength, hrecords⟩
      obtain ⟨record, rest, rfl⟩ := List.exists_cons_of_length_eq_add_one hlength
      have hfirst := hrecords 0 (Nat.succ_pos _)
      rw [add_ofNat_zero] at hfirst
      refine ⟨record, hfirst, rest, ⟨Nat.succ.inj hlength, fun k hk => ?_⟩, rfl⟩
      rw [← add_ofNat_succ]
      exact hrecords (k + 1) (Nat.succ_lt_succ hk)

/-- A row of records ends at the first that cannot be read. -/
theorem recordsFrom_eq_error {start : UInt64} {n : Nat} {e : JournalError}
    (h : recordsFrom account start n s = .error e) :
    ∃ k < n, recordAt account (start + .ofNat k) s = .error e ∧
      ∀ j < k, ∃ record, recordAt account (start + .ofNat j) s = .ok record := by
  induction n generalizing start with
  | zero => cases h
  | succ n ih =>
    simp only [recordsFrom, bind_eq_error] at h
    rcases h with hfirst | ⟨record, hfirst, hrest | ⟨_, -, ⟨⟩⟩⟩
    · refine ⟨0, Nat.succ_pos n, ?_, nofun⟩
      rwa [add_ofNat_zero]
    · obtain ⟨k, hk, herror, hbefore⟩ := ih hrest
      refine ⟨k + 1, Nat.succ_lt_succ hk, ?_, fun j hj => ?_⟩
      · rwa [add_ofNat_succ]
      · cases j with
        | zero =>
          rw [add_ofNat_zero]
          exact ⟨record, hfirst⟩
        | succ j =>
          rw [add_ofNat_succ]
          exact hbefore j (Nat.lt_of_succ_lt_succ hj)

/-- Nothing but the records themselves matters. -/
theorem recordsFrom_congr {start : UInt64} {n : Nat}
    (h : ∀ k < n, recordAt account (start + .ofNat k) s = recordAt account (start + .ofNat k) s') :
    recordsFrom account start n s = recordsFrom account start n s' := by
  induction n generalizing start with
  | zero => rfl
  | succ n ih =>
    have hfirst := h 0 (Nat.succ_pos n)
    rw [add_ofNat_zero] at hfirst
    rw [recordsFrom, recordsFrom, hfirst, @ih (start + 1)]
    intro k hk
    rw [← add_ofNat_succ]
    exact h (k + 1) (Nat.succ_lt_succ hk)

/-! ## The window -/

/-- Where the last `max` of `count` records start. -/
def windowStart (count max : UInt64) : Nat := count.toNat - min count.toNat max.toNat

/-- The record is one of the last `max` of `count`. -/
def InWindow (count max index : UInt64) : Prop :=
  windowStart count max ≤ index.toNat ∧ index.toNat < count.toNat

omit [Digest] in
theorem windowStart_eq (count max : UInt64) :
    windowStart count max = count.toNat - max.toNat := by
  unfold windowStart
  omega

omit [Digest] in
theorem toNat_add_ofNat {start k : Nat} (h : start + k < 2 ^ 64) :
    (UInt64.ofNat start + .ofNat k).toNat = start + k := by
  rw [← UInt64.ofNat_add, UInt64.toNat_ofNat_of_lt' h]

omit [Digest] in
/-- The indices of the window are as many as the records that are read. -/
theorem inWindow_iff {count max : UInt64} :
    InWindow count max index ↔ ∃ k < count.toNat - windowStart count max,
      index = .ofNat (windowStart count max) + .ofNat k := by
  have hcount := count.toNat_lt
  constructor
  · rintro ⟨hstart, hend⟩
    refine ⟨index.toNat - windowStart count max, by omega, ?_⟩
    rw [← UInt64.ofNat_add, Nat.add_sub_cancel' hstart, UInt64.ofNat_toNat]
  · rintro ⟨k, hk, rfl⟩
    rw [InWindow, toNat_add_ofNat (by omega)]
    omega

/-- What a query for the last `max` of `count` records comes to. -/
structure Windowed (account : Address) (max count : UInt64) (s : Access OpenGate)
    (result : Except JournalError (List HistoryRecord)) : Prop where
  /-- It succeeds where all of them can be read. -/
  succeeds : (∃ records, result = .ok records) ↔
    ∀ i, InWindow count max i → Readable account i s.ledger.state
  length : ∀ records, result = .ok records → records.length = min count.toNat max.toNat
  /-- The records come in order, each as it is read by itself. -/
  records : ∀ records, result = .ok records → ∀ k (h : k < records.length),
    records[k].index.toNat = windowStart count max + k ∧
      ((read account records[k].index).apply s).1 = .ok records[k]
  /-- The first that cannot be read is reported as it is when it is read by itself. -/
  corrupted : ∀ e, result = .error e → ∃ i reason, e = .corrupted i reason ∧
    InWindow count max i ∧ ¬ Readable account i s.ledger.state ∧
    (∀ j, InWindow count max j → j.toNat < i.toNat → Readable account j s.ledger.state) ∧
    ((read account i).apply s).1 = .error e

/-- Reading from the start of the window on gives the window. -/
theorem windowed_recordsFrom (account : Address) (max count : UInt64) (s : Access OpenGate) :
    Windowed account max count s (recordsFrom account (.ofNat (windowStart count max))
      (count.toNat - windowStart count max) s.ledger.state) := by
  have hcount := count.toNat_lt
  have hread {records : List HistoryRecord} (hrecords : recordsFrom account
      (.ofNat (windowStart count max)) (count.toNat - windowStart count max) s.ledger.state =
        .ok records) := recordsFrom_eq_ok.1 hrecords
  refine ⟨⟨?_, ?_⟩, ?_, ?_, ?_⟩
  · rintro ⟨records, hrecords⟩ i hi
    obtain ⟨hlength, hrecord⟩ := hread hrecords
    obtain ⟨k, hk, rfl⟩ := inWindow_iff.1 hi
    exact readable_iff.2 ⟨_, hrecord k (hlength ▸ hk)⟩
  · intro hreadable
    cases hresult : recordsFrom account (.ofNat (windowStart count max))
        (count.toNat - windowStart count max) s.ledger.state with
    | ok records => exact ⟨records, rfl⟩
    | error e =>
      obtain ⟨k, hk, herror, -⟩ := recordsFrom_eq_error hresult
      obtain ⟨record, hrecord⟩ := readable_iff.1 (hreadable _ (inWindow_iff.2 ⟨k, hk, rfl⟩))
      cases herror.symm.trans hrecord
  · intro records hrecords
    rw [(hread hrecords).1, windowStart]
    omega
  · intro records hrecords k hk
    obtain ⟨hlength, hrecord⟩ := hread hrecords
    have hindex := (recordAt_eq_ok.1 (hrecord k hk)).1
    rw [hindex, toNat_add_ofNat (by omega), read_open, hrecord k hk]
    exact ⟨rfl, rfl⟩
  · intro e herror
    obtain ⟨k, hk, hfirst, hbefore⟩ := recordsFrom_eq_error herror
    obtain ⟨reason, rfl⟩ := recordAt_eq_error hfirst
    refine ⟨_, reason, rfl, inWindow_iff.2 ⟨k, hk, rfl⟩, ?_, ?_, ?_⟩
    · rintro hreadable
      obtain ⟨record, hrecord⟩ := readable_iff.1 hreadable
      cases hfirst.symm.trans hrecord
    · intro j hj hlt
      obtain ⟨i, hi, rfl⟩ := inWindow_iff.1 hj
      rw [toNat_add_ofNat (by omega), toNat_add_ofNat (by omega)] at hlt
      exact readable_iff.2 (hbefore i (Nat.lt_of_add_lt_add_left hlt))
    · rw [read_open, hfirst]

/-- The counter is the same, and so are the records in the window. -/
structure SameWindow (account : Address) (max : UInt64) (s s' : State) : Prop where
  counter : s'.slot account Slot.historyCount.key = s.slot account Slot.historyCount.key
  records : ∀ count, s.slot account Slot.historyCount.key = .ofUInt64 count →
    ∀ i, InWindow count max i → ∀ field : HistoryField,
      s'.slot account (field.key i) = s.slot account (field.key i)

theorem lastRecords_of_count {count max : UInt64}
    (h : s.slot account Slot.historyCount.key = .ofUInt64 count) :
    lastRecords account max s = recordsFrom account (.ofNat (windowStart count max))
      (count.toNat - windowStart count max) s := by
  have hcount : countIn account s = .ok count := countIn_of_toUInt64 (Word.toUInt64_eq_ok.2 h)
  rw [lastRecords, hcount, windowStart_eq]
  rfl

theorem countIn_of_le (h : 2 ^ 64 ≤ (s.slot account Slot.historyCount.key).toNat) :
    countIn account s = .error (.corrupted 0 "history counter: word does not fit in u64") := by
  rw [countIn, Word.toUInt64_of_le h]
  rfl

/-- A counter that does not decode is reported as record zero. -/
theorem lastRecords_of_le {max : UInt64}
    (h : 2 ^ 64 ≤ (s.slot account Slot.historyCount.key).toNat) :
    lastRecords account max s =
      .error (.corrupted 0 "history counter: word does not fit in u64") := by
  rw [lastRecords, countIn_of_le h]
  rfl

/-- What is read of the last records depends on the records of the window alone. -/
theorem SameWindow.lastRecords_eq {max : UInt64} (h : SameWindow account max s s') :
    lastRecords account max s' = lastRecords account max s := by
  have hcounter := h.counter
  by_cases hfits : (s.slot account Slot.historyCount.key).toNat < 2 ^ 64
  · obtain ⟨count, hcount⟩ := Word.exists_toUInt64.2 hfits
    have hword := Word.toUInt64_eq_ok.1 hcount
    rw [lastRecords_of_count hword, lastRecords_of_count (hcounter.trans hword)]
    refine recordsFrom_congr fun k hk => recordAt_congr fun field => ?_
    exact h.records count hword _ (inWindow_iff.2 ⟨k, hk, rfl⟩) field
  · have hle := Nat.not_lt.1 hfits
    rw [lastRecords_of_le hle, lastRecords_of_le (hcounter ▸ hle)]

end Windows

/-! ## Queries -/

section Queries

variable [Digest]

/-- Without faults a query gives what the state tells, and changes nothing. -/
theorem apply_query (account : Address) (max : UInt64) (s : Access OpenGate) :
    (query account max).apply s = (lastRecords account max s.ledger.state, s) := by
  have hquery := query_answers (σ := OpenGate) account max s rfl
  rcases hresult : (query account max).apply s with ⟨e | records, s'⟩
  · obtain ⟨hledger, herror | hrefused⟩ := hquery.of_error hresult
    · rw [herror]
      show (Except.error e, (⟨s'.ledger, s.gate⟩ : Access OpenGate)) = (.error e, s)
      rw [hledger]
    · exact absurd hrefused not_refused_openGate
  · obtain ⟨hledger, hrecords⟩ := hquery.of_ok hresult
    rw [hrecords]
    show (Except.ok records, (⟨s'.ledger, s.gate⟩ : Access OpenGate)) = (.ok records, s)
    rw [hledger]

theorem apply_history {τ : Type} (max : UInt64) (m : Manager OpenGate τ) :
    (Manager.history max).apply m =
      ((lastRecords Engine.journalAccount max m.desk.access.ledger.state).mapError .journal, m) := by
  have hattach : (Manager.onLedger Access.attach : Manager.Program OpenGate τ Unit).apply m =
      (.ok (), m) := rfl
  rw [Manager.history, Act.apply_bind, hattach]
  simp only [Manager.onDesk, Engine.onLedger, Act.apply_on, Act.apply_failingWith, apply_query]

/-- A query leaves the ledger alone. Where the counter is no number of 64 bits it fails, and otherwise
it comes to what is in the window, and nothing outside has a part in it. The history that a manager
shows is the same, with its errors as errors of the journal. -/
theorem query_window (account : Address) (max : UInt64) (s : Access OpenGate) :
    let outcome := (query account max).apply s
    let counter := s.ledger.state.slot account Slot.historyCount.key
    outcome.2 = s ∧
    (2 ^ 64 ≤ counter.toNat →
      outcome.1 = .error (.corrupted 0 "history counter: word does not fit in u64")) ∧
    (∀ count : UInt64, counter = .ofUInt64 count → Windowed account max count s outcome.1) ∧
    (∀ s' : Access OpenGate, SameWindow account max s.ledger.state s'.ledger.state →
      ((query account max).apply s').1 = outcome.1) ∧
    ∀ (τ : Type) (m : Manager OpenGate τ), m.desk.access = s → account = Engine.journalAccount →
      (Manager.history max).apply m = (outcome.1.mapError .journal, m) := by
  simp only [apply_query]
  refine ⟨trivial, lastRecords_of_le, fun count hcount => ?_, fun s' h => h.lastRecords_eq, ?_⟩
  · rw [lastRecords_of_count hcount]
    exact windowed_recordsFrom account max count s
  · rintro τ m rfl rfl
    exact apply_history max m

end Queries

/-! ### A damaged record -/

/-- The journal is full. Its last record can be read, and the one before is of no kind. -/
def damage : List SlotWrite :=
  @counterWrite Radix.digest SystemAccount.stableToken (lastIndex + 1) ::
  ⟨SystemAccount.stableToken, @HistoryField.key Radix.digest .kind (lastIndex - 1), .ofUInt64 3⟩ ::
  HistoryField.all.map
    (@fieldWrite Radix.digest SystemAccount.stableToken { utmost with index := lastIndex })

def damagedAccess : Access OpenGate := ⟨⟨State.empty.setSlots damage, [], .empty⟩, {}⟩

/-- The last record is given by itself, and with the one before it that one is reported. -/
theorem query_window_damaged :
    let window (max : UInt64) :=
      ((@query _ Radix.digest _ SystemAccount.stableToken max).apply damagedAccess).1
    (∀ max, @Windowed Radix.digest SystemAccount.stableToken max (lastIndex + 1) damagedAccess
      (window max)) ∧
    window 1 = .ok [{ utmost with index := lastIndex }] ∧
    window 2 = .error (.corrupted (lastIndex - 1) "unknown adjustment type 3") := by
  let : Digest := Radix.digest
  have hcounter : damagedAccess.ledger.state.slot SystemAccount.stableToken
      Slot.historyCount.key = .ofUInt64 (lastIndex + 1) := by decide +kernel
  refine ⟨fun max => ?_, by decide +kernel, by decide +kernel⟩
  exact (query_window SystemAccount.stableToken max damagedAccess).2.2.1 (lastIndex + 1) hcounter

end Journal

end StableSupply
