import StableSupply.Events.Notifier
import StableSupply.Proofs.Events.Reception
import StableSupply.Proofs.Table

/-! # Delivery of events

`Channel.Delivered` says of a trace alone what a channel owes its subscribers: who gets a receiver,
what the reads of each receiver find, and how many receivers a published event reaches. Every trace
of a new channel is of this kind (`Channel.trace_delivered`). A notifier is two such channels that
have nothing in common but that they are closed together (`Notifier.trace_delivered`). -/

namespace StableSupply

namespace Channel

variable {α : Type}

/-! ## Receivers on a trace -/

/-- A subscription that got the receiver. -/
def Entry.given (receiver : Nat) : Entry α := .call .subscribe (.subscribed (some receiver))

/-- The receiver is given up, or told that there is no more. -/
def Entry.Ends (receiver : Nat) : Entry α → Prop
  | .call (.unsubscribe r) _ => r = receiver
  | .call (.receive r) (.reading .ended) => r = receiver
  | _ => False

theorem Entry.ends_iff {receiver : Nat} {entry : Entry α} : entry.Ends receiver ↔
    (∃ answer, entry = .call (.unsubscribe receiver) answer) ∨
      entry = .call (.receive receiver) (.reading .ended) := by
  constructor
  · intro h
    rcases entry with ⟨(e | _ | r | r), (_ | _ | (e | _ | _) | _)⟩ | _
    all_goals first | exact h.elim | obtain rfl : r = receiver := h
    · exact .inr rfl
    all_goals exact .inl ⟨_, rfl⟩
  · rintro (⟨answer, rfl⟩ | rfl)
    · exact rfl
    · exact rfl

/-- The receiver was given out and has not come to its end. -/
def Held (receiver : Nat) (entries : List (Entry α)) : Prop :=
  ∃ before after, entries = before ++ .given receiver :: after ∧
    ∀ entry ∈ after, ¬ entry.Ends receiver

/-- The last entry decides whether the subscription is held. -/
theorem held_concat {receiver : Nat} {entries : List (Entry α)} {entry : Entry α} :
    Held receiver (entries ++ [entry]) ↔
      entry = .given receiver ∨ Held receiver entries ∧ ¬ entry.Ends receiver := by
  constructor
  · rintro ⟨before, after, hsplit, hstays⟩
    rcases List.eq_nil_or_concat after with rfl | ⟨after, last, rfl⟩
    · exact .inl (List.singleton_inj.1 (List.append_inj' hsplit rfl).2)
    · have hsplit' : entries ++ [entry] = (before ++ .given receiver :: after) ++ [last] := by
        simpa using hsplit
      obtain ⟨hentries, hlast⟩ := List.append_inj' hsplit' rfl
      obtain rfl := List.singleton_inj.1 hlast
      refine .inr ⟨⟨before, after, hentries, fun other hother => ?_⟩, hstays entry (by simp)⟩
      exact hstays other (by simp [hother])
  · rintro (rfl | ⟨⟨before, after, rfl, hstays⟩, hends⟩)
    · exact ⟨entries, [], rfl, nofun⟩
    · refine ⟨before, after ++ [entry], by simp, ?_⟩
      intro other hother
      rcases List.mem_append.1 hother with hother | hother
      · exact hstays other hother
      · exact List.mem_singleton.1 hother ▸ hends

/-- The events that are published before the close. -/
def published : List (Entry α) → List α
  | [] => []
  | .call (.publish e) _ :: entries => e :: published entries
  | .close :: _ => []
  | _ :: entries => published entries

/-- What a feed is offered is what was published. -/
theorem offered_views (receiver : Nat) (entries : List (Entry α)) :
    Feed.offered (views receiver entries) = published entries := by
  induction entries with
  | nil => rfl
  | cons entry entries ih =>
    rw [views_cons]
    rcases entry with ((e | _ | r | r) | _)
    · exact congrArg (e :: ·) ih
    · exact ih
    · by_cases hr : r = receiver
      · simpa [Entry.view?, hr, Feed.offered, published] using ih
      · simpa [Entry.view?, hr, published] using ih
    · by_cases hr : r = receiver
      · simpa [Entry.view?, hr, Feed.offered, published] using ih
      · simpa [Entry.view?, hr, published] using ih
    · rfl

/-! ## What is owed -/

/-- The trace of a channel of the capacity treats its subscribers as it should. -/
structure Delivered (capacity : Nat) (entries : List (Entry α)) : Prop where
  /-- A subscription gets a receiver of its own, or none once the channel is closed. -/
  subscribed : ∀ before answer after, entries = before ++ .call .subscribe answer :: after →
    .close ∈ before ∧ answer = .subscribed none ∨
    .close ∉ before ∧ ∃ receiver, answer = .subscribed (some receiver) ∧
      .given receiver ∉ before
  /-- From every point on, a receiver's reads find what its feed has come to by then. -/
  read : ∀ before receiver middle after,
    entries = before ++ .given receiver :: (middle ++ after) →
      readings receiver after = (Feed.fresh.after capacity (views receiver middle)).readings
        capacity (views receiver after)
  /-- What a feed has unread is the end of what was published since the subscription. -/
  unread : ∀ before receiver after, entries = before ++ .given receiver :: after →
    (Feed.fresh.after capacity (views receiver after)).unread <:+ published after
  /-- The reads find events that were published after the subscription and before the close, in the
  order in which they were published. -/
  inOrder : ∀ before receiver after, entries = before ++ .given receiver :: after →
    ((readings receiver after).filterMap Reading.event?).Sublist (published after)
  /-- What is retained at the close is still found, and after it the end. -/
  afterClose : ∀ before receiver middle after,
    entries = before ++ .given receiver :: (middle ++ .close :: after) →
    Held receiver (before ++ .given receiver :: middle) →
    (∀ answer, .call (.unsubscribe receiver) answer ∉ after) →
    ∀ i (h : i < (readings receiver after).length), (readings receiver after)[i] =
      ((Feed.fresh.after capacity (views receiver middle)).retained capacity)[i]?.elim
        .ended .event
  /-- A receiver that has come to its end stays there. -/
  ended : ∀ before receiver middle entry after,
    entries = before ++ .given receiver :: (middle ++ entry :: after) → entry.Ends receiver →
      ¬ Held receiver entries ∧ ∀ reading ∈ readings receiver after, reading = .ended
  /-- A published event reaches the receivers that are held, and none once the channel is closed. -/
  reached : ∀ before e answer after, entries = before ++ .call (.publish e) answer :: after →
    ∃ n : Nat, answer = .reached n ∧ (.close ∈ before → n = 0) ∧
      (.close ∉ before → (n : ℕ∞) = {receiver | Held receiver before}.encard)

/-! ## Traces lead to channels -/

/-- The entries lead to the channel. -/
structure Tracks (capacity : Nat) (entries : List (Entry α)) (c : Channel α) : Prop where
  capacity : c.capacity = capacity
  keeps : ∃ all, c.Keeps all
  isOpen : c.isOpen ↔ .close ∉ entries
  named : ∀ receiver, .given receiver ∈ entries → receiver < c.nextReceiver
  held : ∀ receiver, Held receiver entries ↔
    ∃ position, c.receivers.find? receiver = some position

/-- How a channel changes with an entry, as far as it is open and has receivers. -/
structure Turns (c : Channel α) (entry : Entry α) (c' : Channel α) : Prop where
  isOpen : c'.isOpen ↔ c.isOpen ∧ entry ≠ .close
  nextReceiver : c.nextReceiver ≤ c'.nextReceiver
  named : ∀ receiver, entry = .given receiver → receiver < c'.nextReceiver
  receivers : ∀ receiver, (∃ position, c'.receivers.find? receiver = some position) ↔
    entry = .given receiver ∨
      (∃ position, c.receivers.find? receiver = some position) ∧ ¬ entry.Ends receiver

namespace Turns

variable {c c' : Channel α} {entry : Entry α}

/-- The receivers stay the same. -/
theorem of_same (hopen : c'.isOpen = c.isOpen) (hnext : c'.nextReceiver = c.nextReceiver)
    (hreceivers : ∀ receiver, (∃ position, c'.receivers.find? receiver = some position) ↔
      ∃ position, c.receivers.find? receiver = some position)
    (hclose : entry ≠ .close) (hgiven : ∀ receiver, entry ≠ .given receiver)
    (hends : ∀ receiver, entry.Ends receiver → c.receivers.find? receiver = none) :
    Turns c entry c' where
  isOpen := by
    rw [hopen]
    exact (and_iff_left hclose).symm
  nextReceiver := Nat.le_of_eq hnext.symm
  named receiver h := absurd h (hgiven receiver)
  receivers receiver := by
    rw [hreceivers, or_iff_right (hgiven receiver)]
    refine ⟨fun h => ⟨h, fun hend => ?_⟩, And.left⟩
    obtain ⟨position, hfind⟩ := h
    rw [hends receiver hend] at hfind
    cases hfind

/-- One receiver goes. -/
theorem of_unsubscribe (c : Channel α) {receiver : Nat}
    (hends : ∀ r, entry.Ends r ↔ receiver = r) (hclose : entry ≠ .close)
    (hgiven : ∀ r, entry ≠ .given r) : Turns c entry (c.unsubscribe receiver) where
  isOpen := (and_iff_left hclose).symm
  nextReceiver := Nat.le_refl _
  named r h := absurd h (hgiven r)
  receivers r := by
    rw [or_iff_right (hgiven r), hends, Channel.unsubscribe]
    by_cases hsame : r = receiver
    · subst hsame
      simp [Table.find?_erase_self]
    · simp [Table.find?_erase_of_ne _ hsame, Ne.symm hsame]

theorem of_publish (c : Channel α) (e : α) :
    Turns c (.call (.publish e) (.reached (c.publish e).1)) (c.publish e).2 := by
  unfold publish
  split
  · exact .of_same rfl rfl (fun _ => Iff.rfl) nofun nofun nofun
  · exact .of_same rfl rfl (fun _ => Iff.rfl) nofun nofun nofun

theorem of_subscribe (c : Channel α) :
    Turns c (.call .subscribe (.subscribed c.subscribe.1)) c.subscribe.2 := by
  unfold subscribe
  split
  · next hopen =>
    refine ⟨?_, Nat.le_succ _, fun receiver h => ?_, fun receiver => ?_⟩
    · exact (and_iff_left nofun).symm
    · cases h
      exact Nat.lt_succ_self _
    · dsimp only
      by_cases hnew : receiver = c.nextReceiver
      · subst hnew
        simp [Table.find?_insert_self, Entry.given]
      · simp [Table.find?_insert_of_ne _ _ hnew, Entry.given, Entry.Ends, Ne.symm hnew]
  · exact .of_same rfl rfl (fun _ => Iff.rfl) nofun nofun nofun

theorem of_receive {all : List α} (h : c.Keeps all) (receiver : Nat) :
    Turns c (.call (.receive receiver) (.reading (c.receive receiver).1))
      (c.receive receiver).2 := by
  rcases h.receive_cases receiver with ⟨hfind, hread⟩ | ⟨position, hfind, ⟨e, rest, -, -, hread⟩ |
    ⟨-, -, hread⟩ | ⟨-, -, hread⟩⟩
  · rw [hread]
    refine .of_same rfl rfl (fun _ => Iff.rfl) nofun nofun ?_
    rintro _ rfl
    exact hfind
  · rw [hread]
    refine .of_same rfl rfl (fun r => ?_) nofun nofun nofun
    dsimp only
    by_cases hsame : r = receiver
    · subst hsame
      simp [Table.find?_insert_self, hfind]
    · rw [Table.find?_insert_of_ne _ _ hsame]
  · rw [hread]
    exact .of_same rfl rfl (fun _ => Iff.rfl) nofun nofun nofun
  · rw [hread]
    exact .of_unsubscribe c (fun _ => Iff.rfl) nofun nofun

/-- Every action is one turn of the channel. -/
theorem respond {all : List α} (h : c.Keeps all) (action : Action α) :
    Turns c (c.respond action).1 (c.respond action).2 := by
  rcases action with ((e | _ | receiver | receiver) | _)
  · exact .of_publish c e
  · exact .of_subscribe c
  · exact .of_receive h receiver
  · exact .of_unsubscribe c (fun _ => Iff.rfl) nofun nofun
  · refine ⟨?_, Nat.le_refl _, nofun, fun receiver => ?_⟩
    · simp [Channel.respond, close]
    · simp [Channel.respond, close, Entry.given, Entry.Ends]

end Turns

theorem Keeps.respond {c : Channel α} {all : List α} (h : c.Keeps all) (action : Action α) :
    ∃ all', (c.respond action).2.Keeps all' := by
  rcases action with ((e | _ | receiver | receiver) | _)
  · obtain ⟨all', hkeeps, -⟩ := h.publish e
    exact ⟨all', hkeeps⟩
  · exact ⟨all, h.subscribe⟩
  · exact ⟨all, h.receive receiver⟩
  · exact ⟨all, h.unsubscribe receiver⟩
  · exact ⟨all, h.sent, h.kept, h.named⟩

/-- One action keeps the account that the entries give of the channel. -/
theorem Tracks.step {capacity : Nat} {entries : List (Entry α)} {c : Channel α}
    (h : Tracks capacity entries c) (action : Action α) :
    Tracks capacity (entries ++ [(c.respond action).1]) (c.respond action).2 := by
  obtain ⟨all, hkeeps⟩ := h.keeps
  have hturns := Turns.respond hkeeps action
  refine ⟨(c.capacity_respond action).trans h.capacity, hkeeps.respond action, ?_, ?_, ?_⟩
  · rw [hturns.isOpen, h.isOpen, List.mem_append, List.mem_singleton, not_or]
    exact and_congr_right fun _ => ne_comm
  · intro receiver hmem
    rcases List.mem_append.1 hmem with hmem | hmem
    · exact Nat.lt_of_lt_of_le (h.named receiver hmem) hturns.nextReceiver
    · exact hturns.named receiver (List.mem_singleton.1 hmem).symm
  · intro receiver
    rw [held_concat, hturns.receivers, h.held]

/-- The entries lead to the channel, and since its subscription the receiver is where its feed is. -/
structure Attends (capacity : Nat) (receiver : Nat) (before entries : List (Entry α))
    (c : Channel α) : Prop where
  tracks : Tracks capacity (before ++ .given receiver :: entries) c
  follows : ∃ all, c.Follows all receiver (Feed.fresh.after capacity (views receiver entries))

namespace Attends

variable {capacity receiver : Nat} {before entries : List (Entry α)} {c : Channel α}

/-- One action keeps the account that the entries give of a subscription. -/
theorem step (h : Attends capacity receiver before entries c) (action : Action α) :
    Attends capacity receiver before (entries ++ [(c.respond action).1])
      (c.respond action).2 := by
  obtain ⟨all, hfollows⟩ := h.follows
  obtain ⟨⟨all', hstep⟩, -⟩ := hfollows.step action
  refine ⟨?_, all', ?_⟩
  · have htracks := h.tracks.step action
    rwa [List.append_assoc, List.cons_append] at htracks
  · rw [views_append, Feed.after_append, views_cons]
    rw [h.tracks.capacity] at hstep
    simpa [views] using hstep

/-- A receiver is held as long as its feed is. -/
theorem held_iff (h : Attends capacity receiver before entries c) :
    Held receiver (before ++ .given receiver :: entries) ↔
      (Feed.fresh.after capacity (views receiver entries)).isHeld := by
  obtain ⟨all, hfollows⟩ := h.follows
  rw [h.tracks.held]
  constructor
  · rintro ⟨position, hfind⟩
    exact (hfollows.unread position hfind).1
  · intro hheld
    cases hfind : c.receivers.find? receiver with
    | some position => exact ⟨position, rfl⟩
    | none =>
      rw [hfollows.gone hfind] at hheld
      cases hheld

/-- What a receiver reads is told by what it sees. -/
theorem readings_eq (h : Attends capacity receiver before entries c)
    (actions : List (Action α)) : readings receiver (c.trace actions) =
      (Feed.fresh.after capacity (views receiver entries)).readings capacity
        (views receiver (c.trace actions)) := by
  obtain ⟨all, hfollows⟩ := h.follows
  rw [hfollows.readings_eq, h.tracks.capacity]

end Attends

/-! ## Cuts -/

theorem respond_eq_call {c : Channel α} {action : Action α} {call : Call α} {answer : Answer α}
    (h : .call call answer = (c.respond action).1) :
    action = .call call ∧ answer = (c.answer call).1 := by
  cases action with
  | call other =>
    obtain ⟨rfl, hanswer⟩ := Entry.call.inj h
    exact ⟨rfl, hanswer⟩
  | close => cases h

theorem tracks_ofCapacity (requested : Nat) :
    Tracks (max requested 1).nextPowerOfTwo [] (ofCapacity requested : Channel α) where
  capacity := rfl
  keeps := ⟨[], rfl, List.drop_nil.symm, nofun⟩
  isOpen := by simp [ofCapacity]
  named := nofun
  held receiver := by simp [Held, ofCapacity]

section Cuts

variable {capacity : Nat} {entries : List (Entry α)} {c : Channel α} {actions : List (Action α)}

/-- The channel that was asked at a point of its trace. -/
theorem Tracks.cut_call (h : Tracks capacity [] c) {before after : List (Entry α)} {call : Call α}
    {answer : Answer α} (htrace : c.trace actions = before ++ .call call answer :: after) :
    ∃ c' : Channel α, Tracks capacity before c' ∧ answer = (c'.answer call).1 := by
  obtain ⟨c', actions', hcut, htracks⟩ :=
    trace_cut (P := Tracks capacity) (fun _ _ action h => h.step action) h htrace
  obtain ⟨action, _, -, hentry, -⟩ := trace_eq_cons hcut.symm
  exact ⟨c', htracks, (respond_eq_call hentry).2⟩

/-- The channel at a point after a receiver was given out. -/
theorem Tracks.cut_given (h : Tracks capacity [] c) {receiver : Nat}
    {before middle after : List (Entry α)}
    (htrace : c.trace actions = before ++ .given receiver :: (middle ++ after)) :
    ∃ (c' : Channel α) (actions' : List (Action α)), after = c'.trace actions' ∧
      Attends capacity receiver before middle c' := by
  obtain ⟨c₁, actions₁, hcut₁, htracks⟩ :=
    trace_cut (P := Tracks capacity) (fun _ _ action h => h.step action) h htrace
  obtain ⟨action, actions₂, -, hentry, hcut₂⟩ := trace_eq_cons hcut₁.symm
  obtain ⟨rfl, hanswer⟩ := respond_eq_call hentry
  have hnew : c₁.subscribe.1 = some receiver := (Answer.subscribed.inj hanswer).symm
  obtain ⟨all, hkeeps⟩ := htracks.keeps
  have hattends : Attends capacity receiver before [] (c₁.respond (.call .subscribe)).2 := by
    refine ⟨?_, all, .of_subscribe hkeeps hnew⟩
    rw [hentry]
    exact htracks.step _
  exact trace_cut (P := Attends capacity receiver before)
    (fun _ _ action h => h.step action) hattends hcut₂.symm

/-- Nothing is kept from a receiver that is not unsubscribed. -/
theorem leave_notMem_views {receiver : Nat} {entries : List (Entry α)}
    (h : ∀ answer, .call (.unsubscribe receiver) answer ∉ entries) :
    .leave ∉ views receiver entries := by
  intro hmem
  obtain ⟨entry, hentry, hview⟩ := List.mem_filterMap.1 hmem
  rcases entry with ((e | _ | r | r) | _)
  · cases hview
  · cases hview
  · simp only [Entry.view?] at hview
    split at hview <;> cases hview
  · simp only [Entry.view?] at hview
    split at hview
    · next hr => exact h _ (hr ▸ hentry)
    · cases hview
  · cases hview

/-- The entry that ends a receiver ends its feed. -/
theorem Attends.isHeld_of_ends {receiver : Nat} {before middle after : List (Entry α)}
    {entry : Entry α} (h : Attends capacity receiver before middle c)
    (htrace : entry :: after = c.trace actions) (hends : entry.Ends receiver) :
    (Feed.fresh.after capacity (views receiver (middle ++ [entry]))).isHeld = false := by
  have hreadings := h.readings_eq actions
  rw [← htrace, readings_cons, views_cons] at hreadings
  rw [views_append, Feed.after_append]
  rcases Entry.ends_iff.1 hends with ⟨answer, rfl⟩ | rfl
  · simp [views, Entry.view?, Feed.after, Feed.next]
  · simp only [Entry.view?, Entry.reading?, if_true] at hreadings
    have hended : ((Feed.fresh.after capacity (views receiver middle)).read capacity).1 = .ended :=
      (List.cons.inj hreadings).1.symm
    have hgone := Feed.isHeld_of_ended hended
    simpa [views, Entry.view?, Feed.after, Feed.next] using hgone

/-- A channel without a past delivers. -/
theorem Tracks.delivered (h : Tracks capacity [] c) (actions : List (Action α)) :
    Delivered capacity (c.trace actions) where
  subscribed before answer after htrace := by
    obtain ⟨c', htracks, rfl⟩ := h.cut_call htrace
    cases hopen : c'.isOpen with
    | false =>
      have hclosed : .close ∈ before := by
        by_contra hnot
        rw [htracks.isOpen.2 hnot] at hopen
        cases hopen
      refine .inl ⟨hclosed, ?_⟩
      simp [Channel.answer, Channel.subscribe, hopen]
    | true =>
      refine .inr ⟨htracks.isOpen.1 hopen, c'.nextReceiver, ?_, fun hmem => ?_⟩
      · simp [Channel.answer, Channel.subscribe, hopen]
      · exact absurd (htracks.named _ hmem) (Nat.lt_irrefl _)
  read before receiver middle after htrace := by
    obtain ⟨c', actions', rfl, hattends⟩ := h.cut_given htrace
    exact hattends.readings_eq actions'
  unread before receiver after htrace := by
    rw [← offered_views receiver]
    exact Feed.unread_suffix capacity (.fresh : Feed α) (views receiver after)
  inOrder before receiver after htrace := by
    have hstart : c.trace actions = before ++ .given receiver :: ([] ++ after) := htrace
    obtain ⟨c', actions', rfl, hattends⟩ := h.cut_given hstart
    have hsublist := Feed.received_sublist capacity (.fresh : Feed α)
      (views receiver (c'.trace actions'))
    rw [hattends.readings_eq, ← offered_views receiver]
    exact hsublist
  afterClose before receiver middle after htrace hheld hstays i hi := by
    obtain ⟨c', actions', hcut, hattends⟩ := h.cut_given htrace
    have hclosed : c.trace actions =
        before ++ .given receiver :: ((middle ++ [.close]) ++ after) := by
      rw [htrace, List.append_assoc, List.singleton_append]
    obtain ⟨c'', actions'', rfl, hafter⟩ := h.cut_given hclosed
    have hreadings := hafter.readings_eq actions''
    rw [views_append, Feed.after_append] at hreadings
    simp only [hreadings] at hi ⊢
    have hclosing := Feed.readings_of_closed
      (f := (Feed.fresh.after capacity (views receiver middle)).next capacity .close) rfl
      (hattends.held_iff.1 hheld) (leave_notMem_views hstays) i hi
    exact hclosing
  ended before receiver middle entry after htrace hends := by
    obtain ⟨c', actions', hcut, hattends⟩ := h.cut_given htrace
    have hgone := hattends.isHeld_of_ends hcut hends
    have hrest : c.trace actions =
        before ++ .given receiver :: ((middle ++ [entry]) ++ after) := by
      rw [htrace, List.append_assoc, List.singleton_append]
    have hlast : c.trace actions =
        before ++ .given receiver :: ((middle ++ [entry] ++ after) ++ []) := by
      rw [hrest, List.append_nil]
    constructor
    · obtain ⟨_, _, -, hend⟩ := h.cut_given hlast
      rw [hrest, hend.held_iff, views_append, Feed.after_append,
        Feed.isHeld_after hgone]
      exact Bool.false_ne_true
    · obtain ⟨_, _, rfl, hafter⟩ := h.cut_given hrest
      rw [hafter.readings_eq]
      exact Feed.readings_of_not_held capacity hgone _
  reached before e answer after htrace := by
    obtain ⟨c', htracks, rfl⟩ := h.cut_call htrace
    refine ⟨(c'.publish e).1, rfl, fun hclosed => ?_, fun hopen => ?_⟩
    · have hnot : ¬ c'.isOpen := fun hopen => htracks.isOpen.1 hopen hclosed
      rw [publish, if_neg hnot]
    · have hreached : (c'.publish e).1 = c'.receivers.size := by
        rw [publish, if_pos (htracks.isOpen.2 hopen)]
      simp only [htracks.held]
      rw [hreached, Table.encard_keys]

end Cuts

/-- A receiver that falls behind goes on with the oldest event that is kept. -/
example : readings 0 ((⟨2, true, 0, [], .empty, 0⟩ : Channel Nat).trace
    (.call .subscribe :: [1, 2, 3, 4, 5].map (fun e => .call (.publish e)) ++
      List.replicate 3 (.call (.receive 0)))) = [.event 4, .event 5, .pending] := rfl

end Channel

/-! ## Notifiers -/

namespace Notifier

/-- What is done to a notifier. -/
inductive Action
  | update (call : Channel.Call ValueUpdate)
  | adjustment (call : Channel.Call AppliedAdjustment)
  | close

/-- An action with its answer. -/
inductive Entry
  | update (call : Channel.Call ValueUpdate) (answer : Channel.Answer ValueUpdate)
  | adjustment (call : Channel.Call AppliedAdjustment) (answer : Channel.Answer AppliedAdjustment)
  | close

/-- Carries out a call of the channel of updates. -/
def answerUpdate (n : Notifier) : Channel.Call ValueUpdate → Channel.Answer ValueUpdate × Notifier
  | .publish u =>
    let (reached, n) := n.publishUpdate u
    (.reached reached, n)
  | call =>
    let (answer, updates) := n.updates.answer call
    (answer, { n with updates })

/-- Carries out a call of the channel of adjustments. -/
def answerAdjustment (n : Notifier) :
    Channel.Call AppliedAdjustment → Channel.Answer AppliedAdjustment × Notifier
  | .publish a =>
    let (reached, n) := n.publishAdjustment a
    (.reached reached, n)
  | call =>
    let (answer, adjustments) := n.adjustments.answer call
    (answer, { n with adjustments })

/-- Carries out an action, and enters it with its answer. -/
def respond (n : Notifier) : Action → Entry × Notifier
  | .update call =>
    let (answer, n) := n.answerUpdate call
    (.update call answer, n)
  | .adjustment call =>
    let (answer, n) := n.answerAdjustment call
    (.adjustment call answer, n)
  | .close => (.close, n.close)

/-- The entries of actions, each carried out after those before it. -/
def trace (n : Notifier) : List Action → List Entry
  | [] => []
  | action :: actions =>
    let (entry, n) := n.respond action
    entry :: n.trace actions

/-! ### The two channels -/

/-- The action, as far as it is one on the channel of updates. -/
def Action.onUpdates? : Action → Option (Channel.Action ValueUpdate)
  | update call => some (.call call)
  | adjustment _ => none
  | close => some .close

/-- The action, as far as it is one on the channel of adjustments. -/
def Action.onAdjustments? : Action → Option (Channel.Action AppliedAdjustment)
  | update _ => none
  | adjustment call => some (.call call)
  | close => some .close

def Entry.onUpdates? : Entry → Option (Channel.Entry ValueUpdate)
  | update call answer => some (.call call answer)
  | adjustment _ _ => none
  | close => some .close

def Entry.onAdjustments? : Entry → Option (Channel.Entry AppliedAdjustment)
  | update _ _ => none
  | adjustment call answer => some (.call call answer)
  | close => some .close

theorem answerUpdate_eq (n : Notifier) (call : Channel.Call ValueUpdate) :
    n.answerUpdate call =
      ((n.updates.answer call).1, { n with updates := (n.updates.answer call).2 }) := by
  cases call <;> rfl

theorem answerAdjustment_eq (n : Notifier) (call : Channel.Call AppliedAdjustment) :
    n.answerAdjustment call =
      ((n.adjustments.answer call).1,
        { n with adjustments := (n.adjustments.answer call).2 }) := by
  cases call <;> rfl

/-- What is done with the adjustments has no part in what the updates' channel does. -/
theorem trace_onUpdates (n : Notifier) (actions : List Action) :
    (n.trace actions).filterMap Entry.onUpdates? =
      n.updates.trace (actions.filterMap Action.onUpdates?) := by
  induction actions generalizing n with
  | nil => rfl
  | cons action actions ih =>
    cases action with
    | update call =>
      simp only [trace, respond, answerUpdate_eq]
      exact congrArg _ (ih _)
    | adjustment call =>
      simp only [trace, respond, answerAdjustment_eq]
      exact ih _
    | close => exact congrArg _ (ih _)

theorem trace_onAdjustments (n : Notifier) (actions : List Action) :
    (n.trace actions).filterMap Entry.onAdjustments? =
      n.adjustments.trace (actions.filterMap Action.onAdjustments?) := by
  induction actions generalizing n with
  | nil => rfl
  | cons action actions ih =>
    cases action with
    | update call =>
      simp only [trace, respond, answerUpdate_eq]
      exact ih _
    | adjustment call =>
      simp only [trace, respond, answerAdjustment_eq]
      exact congrArg _ (ih _)
    | close => exact congrArg _ (ih _)

/-- Whatever is done with a notifier, each of its channels delivers, and what is done with the other
one does not show. -/
theorem trace_delivered (requested : Nat) (actions : List Action) :
    Channel.Delivered (max requested 1).nextPowerOfTwo
      (((ofCapacity requested).trace actions).filterMap Entry.onUpdates?) ∧
    Channel.Delivered (max requested 1).nextPowerOfTwo
      (((ofCapacity requested).trace actions).filterMap Entry.onAdjustments?) := by
  rw [trace_onUpdates, trace_onAdjustments]
  exact ⟨(Channel.tracks_ofCapacity requested).delivered _,
    (Channel.tracks_ofCapacity requested).delivered _⟩

end Notifier

end StableSupply
