import StableSupply.Proofs.Events.Feed

/-! # Receivers follow their feeds

A trace tells what was done with a channel and what it answered. The entries of a trace that concern
one subscription are the views of its feed. Channel and feed go together (`Channel.Follows`): every
action takes both from states that correspond to states that correspond (`Channel.Follows.step`), so
a receiver reads off the channel what its feed gives for its own views (`Channel.Follows.readings`).
-/

namespace StableSupply

namespace Channel

variable {α : Type}

/-! ## Traces -/

/-- What can be asked of a channel. -/
inductive Call (α : Type)
  | publish (e : α)
  | subscribe
  | receive (receiver : Nat)
  | unsubscribe (receiver : Nat)

/-- What comes of a call of a channel. -/
inductive Answer (α : Type)
  | reached (receivers : Nat)
  | subscribed (receiver : Option Nat)
  | reading (reading : Reading α)
  | done

/-- What is done to a channel. -/
inductive Action (α : Type)
  | call (call : Call α)
  | close

/-- An action with its answer. -/
inductive Entry (α : Type)
  | call (call : Call α) (answer : Answer α)
  | close

/-- Carries out a call. -/
def answer (c : Channel α) : Call α → Answer α × Channel α
  | .publish e =>
    let (receivers, c) := c.publish e
    (.reached receivers, c)
  | .subscribe =>
    let (receiver, c) := c.subscribe
    (.subscribed receiver, c)
  | .receive receiver =>
    let (reading, c) := c.receive receiver
    (.reading reading, c)
  | .unsubscribe receiver => (.done, c.unsubscribe receiver)

/-- Carries out an action, and enters it with its answer. -/
def respond (c : Channel α) : Action α → Entry α × Channel α
  | .call call =>
    let (answer, c) := c.answer call
    (.call call answer, c)
  | .close => (.close, c.close)

/-- The entries of actions, each carried out after those before it. -/
def trace (c : Channel α) : List (Action α) → List (Entry α)
  | [] => []
  | action :: actions =>
    let (entry, c) := c.respond action
    entry :: c.trace actions

theorem trace_eq_cons {c : Channel α} {actions : List (Action α)} {entry : Entry α}
    {rest : List (Entry α)} (h : c.trace actions = entry :: rest) :
    ∃ action actions', actions = action :: actions' ∧ entry = (c.respond action).1 ∧
      rest = (c.respond action).2.trace actions' := by
  cases actions with
  | nil => cases h
  | cons action actions =>
    obtain ⟨hentry, hrest⟩ := List.cons.inj h
    exact ⟨action, actions, rfl, hentry.symm, hrest.symm⟩

/-- What every action keeps up between the entries so far and the channel holds at each cut of a
trace. -/
theorem trace_cut {P : List (Entry α) → Channel α → Prop}
    (hstep : ∀ entries c action, P entries c →
      P (entries ++ [(c.respond action).1]) (c.respond action).2)
    {entries front rest : List (Entry α)} {c : Channel α} {actions : List (Action α)}
    (h : P entries c) (htrace : c.trace actions = front ++ rest) :
    ∃ (c' : Channel α) (actions' : List (Action α)),
      rest = c'.trace actions' ∧ P (entries ++ front) c' := by
  induction front generalizing entries c actions with
  | nil =>
    rw [List.append_nil]
    exact ⟨c, actions, htrace.symm, h⟩
  | cons entry front ih =>
    obtain ⟨action, actions, rfl, rfl, hrest⟩ := trace_eq_cons htrace
    obtain ⟨c', actions', hcut, hP⟩ := ih (hstep entries c action h) hrest.symm
    rw [List.append_assoc] at hP
    exact ⟨c', actions', hcut, hP⟩

/-! ### What concerns one receiver -/

/-- What an entry is to the feed of a receiver. -/
def Entry.view? (receiver : Nat) : Entry α → Option (View α)
  | .call (.publish e) _ => some (.publish e)
  | .call .subscribe _ => none
  | .call (.receive r) _ => if r = receiver then some .read else none
  | .call (.unsubscribe r) _ => if r = receiver then some .leave else none
  | .close => some .close

/-- What the receiver was told. -/
def Entry.reading? (receiver : Nat) : Entry α → Option (Reading α)
  | .call (.receive r) (.reading reading) => if r = receiver then some reading else none
  | _ => none

/-- The entries, as far as the receiver sees them. -/
def views (receiver : Nat) (entries : List (Entry α)) : List (View α) :=
  entries.filterMap (Entry.view? receiver)

/-- What the receiver has read, in order. -/
def readings (receiver : Nat) (entries : List (Entry α)) : List (Reading α) :=
  entries.filterMap (Entry.reading? receiver)

theorem views_append (receiver : Nat) (entries entries' : List (Entry α)) :
    views receiver (entries ++ entries') = views receiver entries ++ views receiver entries' :=
  List.filterMap_append

theorem views_cons (receiver : Nat) (entry : Entry α) (entries : List (Entry α)) :
    views receiver (entry :: entries) = (entry.view? receiver).toList ++ views receiver entries := by
  unfold views
  cases hview : entry.view? receiver with
  | none => rw [List.filterMap_cons_none hview]; rfl
  | some view => rw [List.filterMap_cons_some hview]; rfl

theorem readings_cons (receiver : Nat) (entry : Entry α) (entries : List (Entry α)) :
    readings receiver (entry :: entries) =
      (entry.reading? receiver).toList ++ readings receiver entries := by
  unfold readings
  cases hreading : entry.reading? receiver with
  | none => rw [List.filterMap_cons_none hreading]; rfl
  | some reading => rw [List.filterMap_cons_some hreading]; rfl

/-! ## Channel and feed -/

/-- The channel keeps the last of all events that were published on it. -/
structure Keeps (c : Channel α) (all : List α) : Prop where
  sent : c.sent = all.length
  kept : c.kept = all.drop (all.length - c.capacity)
  named : ∀ receiver position, c.receivers.find? receiver = some position →
    receiver < c.nextReceiver ∧ position ≤ all.length

/-- The receiver is where its feed is. -/
structure Follows (c : Channel α) (all : List α) (receiver : Nat) (f : Feed α) : Prop where
  keeps : c.Keeps all
  isOpen : f.isOpen = c.isOpen
  named : receiver < c.nextReceiver
  gone : c.receivers.find? receiver = none → f.isHeld = false
  unread : ∀ position, c.receivers.find? receiver = some position →
    f.isHeld ∧ f.unread = all.drop position

namespace Keeps

variable {c : Channel α} {all : List α}

/-- No more events are forgotten than the capacity makes necessary. -/
theorem oldest (h : c.Keeps all) : c.oldest = all.length - c.capacity := by
  rw [Channel.oldest, h.sent, h.kept, List.length_drop]
  omega

/-- Of all that was published, a channel keeps the last events. -/
theorem publish (h : c.Keeps all) (e : α) : ∃ all', (c.publish e).2.Keeps all' ∧
    all' = if c.isOpen then all ++ [e] else all := by
  refine ⟨_, ?_, rfl⟩
  unfold Channel.publish
  cases hopen : c.isOpen with
  | false => exact h
  | true =>
    refine ⟨?_, ?_, fun receiver position hfind => ?_⟩
    · simp [h.sent]
    · simp only [h.kept, if_true]
      rw [← List.drop_append_of_le_length (Nat.sub_le ..), List.drop_drop, List.length_drop,
        List.length_append, List.length_singleton]
      congr 1
      omega
    · obtain ⟨hlt, hle⟩ := h.named receiver position hfind
      refine ⟨hlt, ?_⟩
      rw [if_pos rfl, List.length_append]
      omega

theorem subscribe (h : c.Keeps all) : c.subscribe.2.Keeps all := by
  unfold Channel.subscribe
  split
  · refine ⟨h.sent, h.kept, fun receiver position hfind => ?_⟩
    dsimp only at hfind ⊢
    by_cases hnew : receiver = c.nextReceiver
    · subst hnew
      rw [Table.find?_insert_self] at hfind
      cases hfind
      exact ⟨Nat.lt_succ_self _, Nat.le_of_eq h.sent⟩
    · rw [Table.find?_insert_of_ne _ _ hnew] at hfind
      obtain ⟨hlt, hle⟩ := h.named receiver position hfind
      exact ⟨Nat.lt_succ_of_lt hlt, hle⟩
  · exact h

theorem unsubscribe (h : c.Keeps all) (receiver : Nat) : (c.unsubscribe receiver).Keeps all := by
  refine ⟨h.sent, h.kept, fun other position hfind => ?_⟩
  by_cases hsame : other = receiver
  · subst hsame
    rw [Channel.unsubscribe, Table.find?_erase_self] at hfind
    cases hfind
  · rw [Channel.unsubscribe, Table.find?_erase_of_ne _ hsame] at hfind
    exact h.named other position hfind

/-- The receiver moves on to a position that has been reached. -/
theorem move (h : c.Keeps all) {receiver position next : Nat}
    (hfind : c.receivers.find? receiver = some position) (hnext : next ≤ all.length) :
    Keeps { c with receivers := c.receivers.insert receiver next } all := by
  refine ⟨h.sent, h.kept, fun other place hother => ?_⟩
  dsimp only at hother ⊢
  by_cases hsame : other = receiver
  · subst hsame
    rw [Table.find?_insert_self] at hother
    cases hother
    exact ⟨(h.named _ _ hfind).1, hnext⟩
  · rw [Table.find?_insert_of_ne _ _ hsame] at hother
    exact h.named other place hother

/-- The ways in which a receiver's read goes. -/
theorem receive_cases (h : c.Keeps all) (receiver : Nat) :
    (c.receivers.find? receiver = none ∧ c.receive receiver = (.ended, c)) ∨
    ∃ position, c.receivers.find? receiver = some position ∧
      ((∃ e rest, all.drop (max position c.oldest) = e :: rest ∧
          max position c.oldest + 1 ≤ all.length ∧ c.receive receiver = (.event e,
            { c with receivers := c.receivers.insert receiver (max position c.oldest + 1) })) ∨
        (all.drop (max position c.oldest) = [] ∧ c.isOpen ∧ c.receive receiver = (.pending, c)) ∨
        (all.drop (max position c.oldest) = [] ∧ c.isOpen = false ∧
          c.receive receiver = (.ended, c.unsubscribe receiver))) := by
  unfold Channel.receive
  cases hfind : c.receivers.find? receiver with
  | none => exact .inl ⟨rfl, rfl⟩
  | some position =>
    refine .inr ⟨position, rfl, ?_⟩
    have hkept : c.kept[max position c.oldest - c.oldest]? = all[max position c.oldest]? := by
      rw [h.kept, List.getElem?_drop, ← h.oldest]
      congr 1
      omega
    simp only [hkept]
    cases hread : all[max position c.oldest]? with
    | some e =>
      obtain ⟨hlt, heq⟩ := List.getElem?_eq_some_iff.1 hread
      refine .inl ⟨e, all.drop (max position c.oldest + 1), ?_, hlt, rfl⟩
      rw [List.drop_eq_getElem_cons hlt, heq]
    | none =>
      have hnil : all.drop (max position c.oldest) = [] :=
        List.drop_eq_nil_of_le (List.getElem?_eq_none_iff.1 hread)
      cases hopen : c.isOpen with
      | true => exact .inr (.inl ⟨hnil, rfl, rfl⟩)
      | false => exact .inr (.inr ⟨hnil, rfl, rfl⟩)

/-- Reading forgets no event for the others. -/
theorem receive (h : c.Keeps all) (receiver : Nat) : (c.receive receiver).2.Keeps all := by
  rcases h.receive_cases receiver with ⟨-, hread⟩ | ⟨position, hfind, ⟨e, rest, -, hnext, hread⟩ |
    ⟨-, -, hread⟩ | ⟨-, -, hread⟩⟩
  · rwa [hread]
  · rw [hread]
    exact h.move hfind hnext
  · rwa [hread]
  · rw [hread]
    exact h.unsubscribe receiver

end Keeps

/-- A read changes nothing but the place of its receiver. -/
theorem receive_frame (c : Channel α) (receiver : Nat) : ∃ receivers,
    (c.receive receiver).2 = { c with receivers } ∧
    ∀ other, other ≠ receiver → receivers.find? other = c.receivers.find? other := by
  unfold receive
  split
  · exact ⟨_, rfl, fun _ _ => rfl⟩
  · dsimp only
    split
    · exact ⟨_, rfl, fun _ hother => Table.find?_insert_of_ne _ _ hother⟩
    split
    · exact ⟨_, rfl, fun _ _ => rfl⟩
    · exact ⟨_, rfl, fun _ hother => Table.find?_erase_of_ne _ hother⟩

namespace Follows

variable {c c' : Channel α} {all : List α} {receiver : Nat} {f : Feed α}

/-- What happens to other receivers does not matter. -/
theorem congr (h : c.Follows all receiver f) (hkeeps : c'.Keeps all) (hopen : c'.isOpen = c.isOpen)
    (hnext : c.nextReceiver ≤ c'.nextReceiver)
    (hfind : c'.receivers.find? receiver = c.receivers.find? receiver) :
    c'.Follows all receiver f where
  keeps := hkeeps
  isOpen := h.isOpen.trans hopen.symm
  named := Nat.lt_of_lt_of_le h.named hnext
  gone hnone := h.gone (hfind.symm.trans hnone)
  unread position hsome := h.unread position (hfind.symm.trans hsome)

/-- A new receiver starts on a fresh feed. -/
theorem of_subscribe (h : c.Keeps all) {receiver : Nat} (hnew : c.subscribe.1 = some receiver) :
    c.subscribe.2.Follows all receiver .fresh := by
  have hkeeps := h.subscribe
  unfold subscribe at hnew hkeeps ⊢
  split at hnew
  · next hopen =>
    rw [if_pos hopen] at hkeeps ⊢
    obtain rfl := Option.some.inj hnew
    refine ⟨hkeeps, hopen.symm, Nat.lt_succ_self _, fun hnone => ?_, fun position hsome => ?_⟩
    · dsimp only at hnone
      rw [Table.find?_insert_self] at hnone
      cases hnone
    · dsimp only at hsome
      rw [Table.find?_insert_self] at hsome
      cases hsome
      exact ⟨rfl, by rw [h.sent, List.drop_length]; rfl⟩
  · cases hnew

/-- A published event reaches the feed, and may push the oldest out of reach. -/
theorem publish (h : c.Follows all receiver f) (e : α) : ∃ all',
    (c.publish e).2.Follows all' receiver (f.next c.capacity (.publish e)) := by
  obtain ⟨all', hkeeps, hall⟩ := h.keeps.publish e
  refine ⟨all', ?_⟩
  have hopen := h.isOpen
  unfold Channel.publish at hkeeps ⊢
  cases hchannel : c.isOpen with
  | false =>
    rw [hchannel] at hall hopen
    simp only [Feed.next, hopen]
    exact hall ▸ h
  | true =>
    rw [hchannel] at hall hkeeps hopen
    simp only [Feed.next, hopen, if_true] at hkeeps ⊢
    refine ⟨hkeeps, rfl, h.named, h.gone, fun position hfind => ?_⟩
    obtain ⟨hheld, hunread⟩ := h.unread position hfind
    refine ⟨hheld, ?_⟩
    rw [hall, if_pos rfl, hunread,
      List.drop_append_of_le_length (h.keeps.named receiver position hfind).2]

theorem subscribe (h : c.Follows all receiver f) : c.subscribe.2.Follows all receiver f := by
  have hkeeps := h.keeps.subscribe
  unfold Channel.subscribe at hkeeps ⊢
  split at hkeeps
  · next hopen =>
    rw [if_pos hopen]
    exact h.congr hkeeps rfl (Nat.le_succ _)
      (Table.find?_insert_of_ne _ _ (Nat.ne_of_lt h.named))
  · next hclosed =>
    rw [if_neg hclosed]
    exact h

/-- The events that a receiver can still read. -/
theorem retained (h : c.Follows all receiver f) {position : Nat}
    (hfind : c.receivers.find? receiver = some position) :
    f.retained c.capacity = all.drop (max position c.oldest) := by
  have hle := (h.keeps.named receiver position hfind).2
  rw [Feed.retained, (h.unread position hfind).2, List.drop_drop, List.length_drop,
    h.keeps.oldest]
  congr 1
  omega

/-- Reading from the channel is reading from the feed. -/
theorem receive (h : c.Follows all receiver f) :
    (c.receive receiver).1 = (f.read c.capacity).1 ∧
      (c.receive receiver).2.Follows all receiver (f.read c.capacity).2 := by
  rcases h.keeps.receive_cases receiver with ⟨hfind, hreceive⟩ | ⟨position, hfind, hcases⟩
  · have hread : f.read c.capacity = (.ended, f) := by simp [Feed.read, h.gone hfind]
    rw [hreceive, hread]
    exact ⟨rfl, h⟩
  · have hretained := h.retained hfind
    have hheld := (h.unread position hfind).1
    rcases hcases with ⟨e, rest, hdrop, hnext, hreceive⟩ | ⟨hdrop, hopen, hreceive⟩ |
      ⟨hdrop, hopen, hreceive⟩
    · have hread : f.read c.capacity = (.event e, { f with unread := rest }) := by
        simp [Feed.read, hheld, hretained, hdrop]
      rw [hreceive, hread]
      refine ⟨rfl, h.keeps.move hfind hnext, h.isOpen, h.named, fun hnone => ?_,
        fun place hplace => ?_⟩
      · dsimp only at hnone
        rw [Table.find?_insert_self] at hnone
        cases hnone
      · dsimp only at hplace
        rw [Table.find?_insert_self] at hplace
        cases hplace
        have htail := congrArg List.tail hdrop
        rw [List.tail_drop] at htail
        exact ⟨hheld, htail.symm⟩
    · have hread : f.read c.capacity = (.pending, f) := by
        simp [Feed.read, hheld, hretained, hdrop, h.isOpen, hopen]
      rw [hreceive, hread]
      exact ⟨rfl, h⟩
    · have hread : f.read c.capacity = (.ended, { f with isHeld := false }) := by
        simp [Feed.read, hheld, hretained, hdrop, h.isOpen, hopen]
      rw [hreceive, hread]
      refine ⟨rfl, h.keeps.unsubscribe receiver, h.isOpen, h.named, fun _ => rfl,
        fun place hplace => ?_⟩
      rw [Channel.unsubscribe, Table.find?_erase_self] at hplace
      cases hplace

/-- Others may read without its noticing. -/
theorem receive_of_ne (h : c.Follows all receiver f) {other : Nat} (hother : receiver ≠ other) :
    (c.receive other).2.Follows all receiver f := by
  have hkeeps := h.keeps.receive other
  obtain ⟨receivers, hreceive, hfind⟩ := c.receive_frame other
  rw [hreceive] at hkeeps ⊢
  exact h.congr hkeeps rfl (Nat.le_refl _) (hfind receiver hother)

theorem unsubscribe (h : c.Follows all receiver f) :
    (c.unsubscribe receiver).Follows all receiver (f.next c.capacity .leave) := by
  refine ⟨h.keeps.unsubscribe receiver, h.isOpen, h.named, fun _ => rfl, fun place hplace => ?_⟩
  rw [Channel.unsubscribe, Table.find?_erase_self] at hplace
  cases hplace

/-- Others may leave without its noticing. -/
theorem unsubscribe_of_ne (h : c.Follows all receiver f) {other : Nat} (hother : receiver ≠ other) :
    (c.unsubscribe other).Follows all receiver f :=
  h.congr (h.keeps.unsubscribe other) rfl (Nat.le_refl _) (Table.find?_erase_of_ne _ hother)

/-- A feed learns that its channel is closed. -/
theorem close (h : c.Follows all receiver f) :
    c.close.Follows all receiver (f.next c.capacity .close) :=
  ⟨⟨h.keeps.sent, h.keeps.kept, h.keeps.named⟩, rfl, h.named, h.gone, h.unread⟩

/-- An action takes the channel and the feed along together, and answers what the feed gives. -/
theorem step (h : c.Follows all receiver f) (action : Action α) :
    let entry := (c.respond action).1
    (∃ all', (c.respond action).2.Follows all' receiver
      (f.after c.capacity (entry.view? receiver).toList)) ∧
    (entry.reading? receiver).toList = f.readings c.capacity (entry.view? receiver).toList := by
  rcases action with ((e | _ | other | other) | _)
  · exact ⟨h.publish e, rfl⟩
  · exact ⟨⟨all, h.subscribe⟩, rfl⟩
  · by_cases hother : receiver = other
    · subst hother
      simp only [respond, answer, Entry.view?, Entry.reading?, if_true]
      obtain ⟨hreading, hfollows⟩ := h.receive
      refine ⟨⟨all, hfollows⟩, ?_⟩
      rw [hreading]
      rfl
    · simp only [respond, answer, Entry.view?, Entry.reading?, if_neg (Ne.symm hother)]
      exact ⟨⟨all, h.receive_of_ne hother⟩, rfl⟩
  · by_cases hother : receiver = other
    · subst hother
      simp only [respond, answer, Entry.view?, Entry.reading?, if_true]
      exact ⟨⟨all, h.unsubscribe⟩, rfl⟩
    · simp only [respond, answer, Entry.view?, Entry.reading?, if_neg (Ne.symm hother)]
      exact ⟨⟨all, h.unsubscribe_of_ne hother⟩, rfl⟩
  · exact ⟨⟨all, h.close⟩, rfl⟩

end Follows

theorem capacity_respond (c : Channel α) (action : Action α) :
    (c.respond action).2.capacity = c.capacity := by
  rcases action with ((e | _ | receiver | receiver) | _)
  · simp only [respond, answer, publish]
    split <;> rfl
  · simp only [respond, answer, subscribe]
    split <;> rfl
  · obtain ⟨receivers, hreceive, -⟩ := c.receive_frame receiver
    simp only [respond, answer, hreceive]
  · rfl
  · rfl

/-- What a receiver is told along a trace is what its feed gives. -/
theorem Follows.readings_eq {c : Channel α} {all : List α} {receiver : Nat} {f : Feed α}
    (h : c.Follows all receiver f) (actions : List (Action α)) :
    readings receiver (c.trace actions) =
      f.readings c.capacity (views receiver (c.trace actions)) := by
  induction actions generalizing c all f with
  | nil => rfl
  | cons action actions ih =>
    obtain ⟨⟨all', hstep⟩, hreading⟩ := h.step action
    have hrest := ih hstep
    rw [capacity_respond] at hrest
    simp only [trace]
    rw [readings_cons, views_cons, Feed.readings_append, hreading, hrest]

end Channel

end StableSupply
