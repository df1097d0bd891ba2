import StableSupply.Journal
import StableSupply.Proofs.Ledger.Requests
import StableSupply.Proofs.Slot.Names
import StableSupply.Proofs.Word

/-! # What the journal reads and writes

The words of a state determine the number of records (`countIn`), every record (`recordAt`) and
where the next one goes (`nextIndex`). Programs of the journal give these answers unless a request
is refused. Appending writes a list of words, seven for the record and the counter last
(`recordWrites`), of which a refusal leaves the first so many done. On a digest that keeps names
apart the record is then read back (`recordAt_recordWrites`), and every other record is as before
(`recordAt_congr`). -/

namespace StableSupply.Journal

open Gate

variable [Digest]

/-! ## What a state records -/

/-- The number of records that the counter of a state shows, if it decodes. -/
def countIn (account : Address) (s : State) : Except JournalError UInt64 :=
  decoded 0 "history counter" (s.slot account Slot.historyCount.key).toUInt64

/-- The index at which a record of the kind is appended. -/
def nextIndex (account : Address) (kind : Kind) (s : State) : Except JournalError UInt64 :=
  if kind = .none then .error (.unrecordable kind)
  else
    match countIn account s with
    | .ok n =>
      if n.toNat + 1 < 2 ^ 64 then .ok n else .error (.corrupted n "history counter exhausted")
    | .error e => .error e

/-- A record gets the count as its index, if it is of an adjustment and the count can go up. -/
theorem nextIndex_eq_ok {account : Address} {kind : Kind} {s : State} {n : UInt64} :
    nextIndex account kind s = .ok n ↔
      kind ≠ .none ∧ countIn account s = .ok n ∧ n.toNat + 1 < 2 ^ 64 := by
  unfold nextIndex
  by_cases hkind : kind = .none
  · simp [hkind]
  · rw [if_neg hkind]
    cases countIn account s with
    | error e => simp
    | ok m =>
      by_cases hlt : m.toNat + 1 < 2 ^ 64
      · simp only [hlt, if_true, Except.ok.injEq]
        exact ⟨fun h => ⟨hkind, h, h ▸ hlt⟩, fun h => h.2.1⟩
      · simp only [hlt, if_false, Except.ok.injEq]
        exact ⟨nofun, fun h => absurd (h.2.1 ▸ h.2.2) hlt⟩

/-- The record that the slots of a state make up at an index, if they decode. -/
def recordAt (account : Address) (index : UInt64) (s : State) :
    Except JournalError HistoryRecord := do
  let word (field : HistoryField) := s.slot account (field.key index)
  let code ← decoded index "type" (word .kind).toUInt64
  let kind ← recordedKind index code
  let deviationBps ← decoded index "deviation" (word .deviation).toInt64
  let timestamp ← decoded index "timestamp" (word .timestamp).toUInt64
  return { index, kind
           supplyDelta := word .supplyDelta
           counterpart := word .counterpart
           deviationBps
           resultingSupply := word .resultingSupply
           claimedSupply := word .claimedSupply
           timestamp }

/-- The records from `start` on, `n` of them. -/
def recordsFrom (account : Address) (start : UInt64) :
    (n : Nat) → State → Except JournalError (List HistoryRecord)
  | 0, _ => .ok []
  | n + 1, s => do
    let record ← recordAt account start s
    let rest ← recordsFrom account (start + 1) n s
    return record :: rest

/-- The last `max` records. -/
def lastRecords (account : Address) (max : UInt64) (s : State) :
    Except JournalError (List HistoryRecord) := do
  let total := (← countIn account s).toNat
  let start := total - max.toNat
  recordsFrom account (.ofNat start) (total - start) s

/-- A record depends on nothing but its own words. -/
theorem recordAt_congr {account : Address} {index : UInt64} {s s' : State}
    (h : ∀ field : HistoryField,
      s.slot account (field.key index) = s'.slot account (field.key index)) :
    recordAt account index s = recordAt account index s' := by
  simp only [recordAt, h]

/-! ## What is written -/

/-- The write of a field. -/
def fieldWrite (account : Address) (record : HistoryRecord) (field : HistoryField) : SlotWrite :=
  ⟨account, field.key record.index, fieldWord record field⟩

/-- The write of the counter. -/
def counterWrite (account : Address) (count : UInt64) : SlotWrite :=
  ⟨account, Slot.historyCount.key, .ofUInt64 count⟩

/-- The words of a record, and the counter after it. -/
def recordWrites (account : Address) (record : HistoryRecord) : List SlotWrite :=
  HistoryField.all.map (fieldWrite account record) ++ [counterWrite account (record.index + 1)]

/-- A record takes one write for each field, and one for the counter. -/
theorem mem_recordWrites {account : Address} {record : HistoryRecord} {w : SlotWrite} :
    w ∈ recordWrites account record ↔
      (∃ field, w = fieldWrite account record field) ∨
        w = counterWrite account (record.index + 1) := by
  simp only [recordWrites, List.mem_append, List.mem_map, List.mem_singleton,
    HistoryField.mem_all, true_and]
  exact or_congr_left (exists_congr fun _ => eq_comm)

section Separated

variable {token : StableToken} (hsep : Digest.Separates token) {account : Address}
  {record : HistoryRecord} {s : State}
include hsep

/-- After the writes of a record each field is in its slot. -/
theorem slot_recordWrites_field (field : HistoryField) :
    (s.setSlots (recordWrites account record)).slot account (field.key record.index) =
      fieldWord record field := by
  refine State.slot_setSlots_of_mem ⟨fieldWrite account record field,
    mem_recordWrites.2 (.inl ⟨field, rfl⟩), rfl⟩ fun w hw hp => ?_
  rcases mem_recordWrites.1 hw with ⟨g, rfl⟩ | rfl
  · obtain ⟨rfl, -⟩ := hsep.fieldKey_injective (Prod.mk.inj hp).2
    rfl
  · exact absurd (Prod.mk.inj hp).2.symm (hsep.fieldKey_ne_key Slot.inUse_historyCount field _)

/-- After the writes of a record the counter is one above its index. -/
theorem slot_recordWrites_counter :
    (s.setSlots (recordWrites account record)).slot account Slot.historyCount.key =
      .ofUInt64 (record.index + 1) := by
  refine State.slot_setSlots_of_mem ⟨counterWrite account (record.index + 1),
    mem_recordWrites.2 (.inr rfl), rfl⟩ fun w hw hp => ?_
  rcases mem_recordWrites.1 hw with ⟨g, rfl⟩ | rfl
  · exact absurd (Prod.mk.inj hp).2 (hsep.fieldKey_ne_key Slot.inUse_historyCount g _)
  · rfl

theorem countIn_recordWrites :
    countIn account (s.setSlots (recordWrites account record)) = .ok (record.index + 1) := by
  rw [countIn, slot_recordWrites_counter hsep, Word.toUInt64_ofUInt64]
  rfl

/-- A written record is read back. -/
theorem recordAt_recordWrites (hkind : record.kind ≠ .none) :
    recordAt account record.index (s.setSlots (recordWrites account record)) = .ok record := by
  have hcode : recordedKind record.index record.kind.code = .ok record.kind := by
    rw [recordedKind, Kind.ofCode?_code]
    cases h : record.kind with
    | none => exact absurd h hkind
    | expansion | contraction => rfl
  simp only [recordAt, slot_recordWrites_field hsep, fieldWord, Word.toUInt64_ofUInt64,
    Word.toInt64_ofInt64]
  simp only [decoded, Except.mapError, bind, Except.bind, hcode]
  rfl

end Separated

/-- Other records are not touched. -/
theorem slot_recordWrites_other {token : StableToken} (hsep : Digest.Separates token)
    {account : Address} {record : HistoryRecord} {index : UInt64} (h : index ≠ record.index)
    (field : HistoryField) : ∀ w ∈ recordWrites account record,
      w.place ≠ (account, field.key index) := by
  intro w hw hp
  rcases mem_recordWrites.1 hw with ⟨g, rfl⟩ | rfl
  · exact h (hsep.fieldKey_injective (Prod.mk.inj hp).2).2.symm
  · exact hsep.fieldKey_ne_key Slot.inUse_historyCount field index (Prod.mk.inj hp).2.symm

/-! ## Programs -/

variable {σ : Type} [Gate σ] {s : Access σ}

/-- The journal reports a refused request. -/
def Refused (σ : Type) [Gate σ] (e : JournalError) : Prop := ∃ c, e = .ledger c ∧ Refusal σ c

/-- On the ledger the program comes to the result, unless a request is refused, and leaves the
ledger alone. -/
def Answers {α : Type} (act : Program σ α) (l : Ledger) (result : Except JournalError α) : Prop :=
  ∀ s : Access σ, s.ledger = l → act.Ensures s (fun a s' => s'.ledger = l ∧ result = .ok a)
    fun e s' => s'.ledger = l ∧ (result = .error e ∨ Refused σ e)

section Answers

variable {α β : Type} {l : Ledger}

omit [Digest] in
theorem Answers.pure {a : α} : Answers (pure a : Program σ α) l (.ok a) := fun _ hs => ⟨hs, rfl⟩

omit [Digest] in
theorem Answers.liftExcept {result : Except JournalError α} :
    Answers (liftM result : Program σ α) l result := by
  intro s hs
  rw [Act.ensures_liftExcept]
  cases result with
  | ok a => exact ⟨hs, rfl⟩
  | error e => exact ⟨hs, .inl rfl⟩

omit [Digest] in
/-- The answer of two queries is told by the state that both of them see. -/
theorem Answers.bind {act : Program σ α} {f : α → Program σ β} {result : Except JournalError α}
    {g : α → Except JournalError β} (h : Answers act l result) (hf : ∀ a, Answers (f a) l (g a)) :
    Answers (act >>= f) l (result >>= g) := by
  intro s hs
  rw [Act.ensures_bind]
  refine (h s hs).mono ?_ ?_
  · intro a s₁ h₁
    obtain ⟨hl, rfl⟩ := h₁
    exact hf a s₁ hl
  · intro e s₁ h₁
    exact ⟨h₁.1, h₁.2.imp_left fun he => by rw [he]; rfl⟩

omit [Digest] in
theorem readSlot_answers (account : Address) (key : Hash) :
    Answers (readSlot account key : Program σ Word) l (.ok (l.state.slot account key)) := by
  intro s hs
  simp only [readSlot, request, Act.ensures_failingWith]
  refine (Access.read_ensures account key).mono ?_ ?_
  · intro word s₁ h₁
    exact ⟨h₁.1.trans hs, by rw [h₁.2, hs]⟩
  · intro c s₁ h₁
    exact ⟨h₁.1.trans hs, .inr ⟨c, rfl, h₁.2⟩⟩

omit [Digest] in
/-- A slot is read on the way to the result. -/
theorem Answers.afterRead {account : Address} {key : Hash} {f : Word → Program σ β}
    {result : Except JournalError β} (h : Answers (f (l.state.slot account key)) l result) :
    Answers (readSlot account key >>= f) l result := by
  intro s hs
  rw [Act.ensures_bind]
  refine (readSlot_answers account key s hs).mono ?_ ?_
  · intro word s₁ h₁
    obtain ⟨hl, hword⟩ := h₁
    cases hword
    exact h s₁ hl
  · intro e s₁ h₁
    exact ⟨h₁.1, h₁.2.imp_left nofun⟩

omit [Digest] in
/-- Where nothing is refused the program gives its result. -/
theorem Answers.apply_open {act : Program OpenGate α} {result : Except JournalError α}
    (h : Answers act l result) (g : OpenGate) : (act.apply ⟨l, g⟩).1 = result := by
  have hanswer := h ⟨l, g⟩ rfl
  unfold Act.Ensures at hanswer
  split at hanswer
  · next happly => rw [happly, hanswer.2]
  · next happly =>
    rw [happly]
    rcases hanswer.2 with herror | ⟨c, -, hrefusal⟩
    · exact herror.symm
    · exact absurd hrefusal openGate_not_refusal

/-- The count is told by the state. -/
theorem count_answers (account : Address) :
    Answers (count account : Program σ UInt64) l (countIn account l.state) :=
  .afterRead .liftExcept

/-- A record is told by the state. -/
theorem read_answers (account : Address) (index : UInt64) :
    Answers (read account index : Program σ HistoryRecord) l (recordAt account index l.state) :=
  .afterRead <| .bind .liftExcept fun _ => .bind .liftExcept fun _ =>
    .afterRead <| .afterRead <| .afterRead <| .bind .liftExcept fun _ =>
      .afterRead <| .afterRead <| .afterRead <| .bind .liftExcept fun _ => .pure

/-- Consecutive records are told by the state. -/
theorem readFrom_answers (account : Address) (start : UInt64) (n : Nat) :
    Answers (readFrom account start n : Program σ (List HistoryRecord)) l
      (recordsFrom account start n l.state) := by
  induction n generalizing start with
  | zero => exact .pure
  | succ n ih =>
    exact .bind (read_answers account start) fun _ => .bind (ih (start + 1)) fun _ => .pure

/-- The last records are told by the state. -/
theorem query_answers (account : Address) (max : UInt64) :
    Answers (query account max : Program σ (List HistoryRecord)) l
      (lastRecords account max l.state) :=
  .bind (count_answers account) fun _ => readFrom_answers account _ _

end Answers

/-- The fields are written in order, up to the first write that is refused. -/
theorem writeFields_ensures (account : Address) (record : HistoryRecord)
    (fields : List HistoryField) :
    (writeFields account record fields).Ensures s
      (fun _ s' => s'.ledger = s.ledger.setSlots (fields.map (fieldWrite account record)))
      fun e s' => s.ledger.PartlySet (fields.map (fieldWrite account record)) s'.ledger ∧
        Refused σ e := by
  induction fields generalizing s with
  | nil => rfl
  | cons field rest ih =>
    simp only [writeFields, writeSlot, request, Act.ensures_bind, Act.ensures_failingWith]
    refine (Access.write_ensures ..).mono ?_ ?_
    · intro _ s₁ h₁
      refine ih.mono ?_ ?_
      · intro _ s₂ h₂
        rw [h₂, h₁]
        rfl
      · intro e s₂ h₂
        rw [List.map_cons]
        exact ⟨.cons (h₁ ▸ h₂.1), h₂.2⟩
    · intro e s₁ h₁
      exact ⟨h₁.1 ▸ .none, _, rfl, h₁.2⟩

theorem append_ensures (account : Address) (record : HistoryRecord) :
    (append account record).Ensures s
      (fun r s' => ∃ n, nextIndex account record.kind s.ledger.state = .ok n ∧
        r = { record with index := n } ∧
        s'.ledger = s.ledger.setSlots (recordWrites account r))
      fun e s' =>
        (s'.ledger = s.ledger ∧ nextIndex account record.kind s.ledger.state = .error e) ∨
        Refused σ e ∧ (s'.ledger = s.ledger ∨
          ∃ n, nextIndex account record.kind s.ledger.state = .ok n ∧
            s.ledger.PartlySet (recordWrites account { record with index := n }) s'.ledger) := by
  unfold append
  by_cases hkind : record.kind = .none
  · rw [if_pos hkind]
    exact .inl ⟨rfl, by rw [nextIndex, if_pos hkind]⟩
  rw [if_neg hkind]
  simp only [Act.ensures_bind]
  refine (count_answers account s rfl).mono ?_ ?_
  · intro n s₁ h₁
    obtain ⟨hl, hn⟩ := h₁
    split
    · next hlt =>
      have hnext : nextIndex account record.kind s.ledger.state = .ok n := by
        rw [nextIndex, if_neg hkind, hn]
        exact if_pos hlt
      simp only [Act.ensures_bind, Act.ensures_pure, writeSlot, request, Act.ensures_failingWith]
      refine (writeFields_ensures account _ _).mono ?_ ?_
      · intro _ s₂ h₂
        rw [hl] at h₂
        refine (Access.write_ensures ..).mono ?_ ?_
        · intro _ s₃ h₃
          refine ⟨n, hnext, rfl, ?_⟩
          rw [h₃, h₂, recordWrites, Ledger.setSlots_append]
          rfl
        · intro e s₃ h₃
          refine .inr ⟨⟨_, rfl, h₃.2⟩, .inr ⟨n, hnext, ?_⟩⟩
          rw [h₃.1, h₂]
          exact .append .all
      · intro e s₂ h₂
        rw [hl] at h₂
        exact .inr ⟨h₂.2, .inr ⟨n, hnext, h₂.1.append⟩⟩
    · next hge =>
      refine .inl ⟨hl, ?_⟩
      rw [nextIndex, if_neg hkind, hn]
      exact if_neg hge
  · intro e s₁ h₁
    rcases h₁.2 with he | he
    · refine .inl ⟨h₁.1, ?_⟩
      rw [nextIndex, if_neg hkind, he]
    · exact .inr ⟨he, .inl h₁.1⟩

end StableSupply.Journal
