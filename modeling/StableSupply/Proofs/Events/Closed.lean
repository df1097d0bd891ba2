import StableSupply.Proofs.Events.Reception

/-! # Closed channels

A closed channel takes no more events and no more receivers. A receiver that stays gets the events
that were queued for it, one for each read, and after them no more
(`Channel.readings_of_closed`). -/

namespace StableSupply.Channel

variable {α : Type}

/-- The kept events that a receiver has not seen, oldest first. -/
def queued (c : Channel α) (receiver : Nat) : List α :=
  match c.receivers.find? receiver with
  | some position => c.kept.drop (position - c.oldest)
  | none => []

variable {c : Channel α} {receiver : Nat}

theorem queued_of_find? {position : Nat} (h : c.receivers.find? receiver = some position) :
    c.queued receiver = c.kept.drop (position - c.oldest) := by
  rw [queued, h]

theorem queued_of_find?_eq_none (h : c.receivers.find? receiver = none) :
    c.queued receiver = [] := by
  rw [queued, h]

/-- A queue depends on the place of its receiver and on the events that are kept. -/
theorem queued_congr {receivers : Table Nat Nat}
    (h : receivers.find? receiver = c.receivers.find? receiver) :
    queued { c with receivers } receiver = c.queued receiver := by
  unfold queued
  dsimp only
  rw [h]
  rfl

/-- Nothing waits for a receiver that has left. -/
theorem queued_unsubscribe_self (c : Channel α) (receiver : Nat) :
    (c.unsubscribe receiver).queued receiver = [] :=
  queued_of_find?_eq_none (Table.find?_erase_self ..)

/-! ## What a closed channel answers -/

/-- Nobody subscribes to a closed channel. -/
theorem subscribe_of_closed (h : c.isOpen = false) : c.subscribe = (none, c) := by
  simp [subscribe, h]

/-- A closed channel takes no event, and none is reached. -/
theorem publish_of_closed (h : c.isOpen = false) (e : α) : c.publish e = (0, c) := by
  simp [publish, h]

/-- A read takes the first of the queued events. -/
theorem receive_of_closed (h : c.isOpen = false) (receiver : Nat) :
    (c.receive receiver).1 = (c.queued receiver).head?.elim .ended .event ∧
      (c.receive receiver).2.queued receiver = (c.queued receiver).tail := by
  cases hfind : c.receivers.find? receiver with
  | none =>
    have hreceive : c.receive receiver = (.ended, c) := by rw [receive, hfind]
    rw [hreceive, queued_of_find?_eq_none hfind]
    exact ⟨rfl, rfl⟩
  | some position =>
    have hplace : max position c.oldest - c.oldest = position - c.oldest := by omega
    rw [queued_of_find? hfind, List.head?_drop, List.tail_drop]
    cases hread : c.kept[position - c.oldest]? with
    | some e =>
      have hreceive : c.receive receiver = (.event e,
          { c with receivers := c.receivers.insert receiver (max position c.oldest + 1) }) := by
        simp only [receive, hfind, hplace, hread]
      have hnext : max position c.oldest + 1 - c.oldest = position - c.oldest + 1 := by omega
      rw [hreceive, queued_of_find? (Table.find?_insert_self ..)]
      exact ⟨rfl, congrArg c.kept.drop hnext⟩
    | none =>
      have hreceive : c.receive receiver = (.ended, c.unsubscribe receiver) := by
        simp only [receive, hfind, hplace, hread, h, Bool.false_eq_true, if_false]
      have hseen : c.kept.length ≤ position - c.oldest + 1 :=
        Nat.le_succ_of_le (List.getElem?_eq_none_iff.1 hread)
      rw [hreceive, queued_unsubscribe_self, List.drop_eq_nil_of_le hseen]
      exact ⟨rfl, rfl⟩

theorem isOpen_respond_of_closed (h : c.isOpen = false) (action : Action α) :
    (c.respond action).2.isOpen = false := by
  rcases action with ((e | _ | receiver | receiver) | _)
  · simp only [respond, answer, publish_of_closed h, h]
  · simp only [respond, answer, subscribe_of_closed h, h]
  · obtain ⟨receivers, hreceive, -⟩ := c.receive_frame receiver
    simp only [respond, answer, hreceive, h]
  · exact h
  · rfl

/-- What others do does not touch a receiver's queue. -/
theorem queued_respond_of_closed (h : c.isOpen = false) {action : Action α}
    (hread : action ≠ .call (.receive receiver)) (hleave : action ≠ .call (.unsubscribe receiver)) :
    (c.respond action).2.queued receiver = c.queued receiver := by
  rcases action with ((e | _ | other | other) | _)
  · simp only [respond, answer, publish_of_closed h]
  · simp only [respond, answer, subscribe_of_closed h]
  · obtain ⟨receivers, hreceive, hfind⟩ := c.receive_frame other
    simp only [respond, answer, hreceive]
    exact queued_congr (hfind receiver fun hsame => hread (by rw [hsame]))
  · have hne : receiver ≠ other := fun hsame => hleave (by rw [hsame])
    exact queued_congr (Table.find?_erase_of_ne _ hne)
  · rfl

/-- From a closed channel a receiver reads what waits for it, and then that the channel has ended.
-/
theorem readings_of_closed (h : c.isOpen = false) {actions : List (Action α)}
    (hstays : .call (.unsubscribe receiver) ∉ actions) (i : Nat)
    (hi : i < (readings receiver (c.trace actions)).length) :
    (readings receiver (c.trace actions))[i] = (c.queued receiver)[i]?.elim .ended .event := by
  induction actions generalizing c i with
  | nil => exact absurd hi (Nat.not_lt_zero _)
  | cons action actions ih =>
    obtain ⟨hleave, hstays⟩ := not_or.1 (mt List.mem_cons.2 hstays)
    have hrest := ih (isOpen_respond_of_closed h action) hstays
    by_cases hread : action = .call (.receive receiver)
    · subst hread
      obtain ⟨hfirst, htail⟩ := receive_of_closed h receiver
      have hreadings : readings receiver (c.trace (.call (.receive receiver) :: actions)) =
          (c.receive receiver).1 :: readings receiver ((c.receive receiver).2.trace actions) := by
        simp [trace, respond, answer, readings, Entry.reading?]
      simp only [respond, answer, htail] at hrest
      simp only [hreadings] at hi ⊢
      cases i with
      | zero => rw [List.getElem_cons_zero, hfirst, List.head?_eq_getElem?]
      | succ i =>
        rw [List.getElem_cons_succ, hrest i (Nat.lt_of_succ_lt_succ hi), List.getElem?_tail]
    · have hreadings : readings receiver (c.trace (action :: actions)) =
          readings receiver ((c.respond action).2.trace actions) := by
        rw [trace, readings_cons]
        have hnone : (c.respond action).1.reading? receiver = none := by
          rcases action with ((e | _ | other | other) | _)
          · rfl
          · rfl
          · exact if_neg fun hsame => hread (by rw [hsame])
          · rfl
          · rfl
        rw [hnone]
        rfl
      rw [queued_respond_of_closed h hread (Ne.symm hleave)] at hrest
      simp only [hreadings] at hi ⊢
      exact hrest i hi

end StableSupply.Channel
