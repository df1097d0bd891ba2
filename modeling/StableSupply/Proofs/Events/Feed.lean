import StableSupply.Events.Channel

/-! # What one subscriber gets

A `Feed` is what a single subscription amounts to, told without the channel and its other receivers:
the events that were published and not yet read, of which only the last so many can still be read.
What is read off a feed is a part of what was published, in its order (`Feed.received_sublist`), and
once the channel is closed it is what was left and then nothing (`Feed.readings_of_closed`). -/

namespace StableSupply

/-- The event that was found. -/
def Reading.event? {α : Type} : Reading α → Option α
  | event e => some e
  | _ => none

/-- What a subscription has to do with. -/
inductive View (α : Type)
  | publish (e : α)
  | read
  | leave
  | close

/-- A channel as one receiver sees it. -/
structure Feed (α : Type) where
  /-- Published since the subscription, neither read nor passed over, oldest first. -/
  unread : List α
  isOpen : Bool
  isHeld : Bool

namespace Feed

variable {α : Type}

/-- The feed of a new subscription. -/
def fresh : Feed α := ⟨[], true, true⟩

/-- The unread events among the last so many that were published. -/
def retained (capacity : Nat) (f : Feed α) : List α := f.unread.drop (f.unread.length - capacity)

/-- Reads the oldest retained event and passes over the unread ones before it. -/
def read (capacity : Nat) (f : Feed α) : Reading α × Feed α :=
  if f.isHeld then
    match f.retained capacity with
    | e :: rest => (.event e, { f with unread := rest })
    | [] => if f.isOpen then (.pending, f) else (.ended, { f with isHeld := false })
  else (.ended, f)

/-- What a view makes of the feed. -/
def next (capacity : Nat) (f : Feed α) : View α → Feed α
  | .publish e => if f.isOpen then { f with unread := f.unread ++ [e] } else f
  | .read => (f.read capacity).2
  | .leave => { f with isHeld := false }
  | .close => { f with isOpen := false }

/-- The feed after all of these. -/
def after (capacity : Nat) (f : Feed α) (views : List (View α)) : Feed α :=
  views.foldl (next capacity) f

/-- What the reads among these find. -/
def readings (capacity : Nat) (f : Feed α) : List (View α) → List (Reading α)
  | [] => []
  | .read :: views => (f.read capacity).1 :: (f.next capacity .read).readings capacity views
  | view :: views => (f.next capacity view).readings capacity views

/-- The events that are published before the close. -/
def offered : List (View α) → List α
  | [] => []
  | .publish e :: views => e :: offered views
  | .close :: _ => []
  | _ :: views => offered views

variable {capacity : Nat} {f : Feed α}

theorem after_append (f : Feed α) (views views' : List (View α)) :
    f.after capacity (views ++ views') = (f.after capacity views).after capacity views' :=
  List.foldl_append

/-- What is read later is read from the feed that the earlier views leave. -/
theorem readings_append (f : Feed α) (views views' : List (View α)) :
    f.readings capacity (views ++ views') =
      f.readings capacity views ++ (f.after capacity views).readings capacity views' := by
  induction views generalizing f with
  | nil => rfl
  | cons view views ih =>
    cases view with
    | read => exact congrArg (_ :: ·) (ih _)
    | publish e => exact ih _
    | leave => exact ih _
    | close => exact ih _

/-! ## Reads -/

/-- The four ways in which a read goes. -/
theorem read_cases (capacity : Nat) (f : Feed α) :
    (∃ e rest, f.isHeld ∧ f.retained capacity = e :: rest ∧
      f.read capacity = (.event e, { f with unread := rest })) ∨
    (f.isHeld ∧ f.retained capacity = [] ∧ f.isOpen ∧ f.read capacity = (.pending, f)) ∨
    (f.isHeld ∧ f.retained capacity = [] ∧ f.isOpen = false ∧
      f.read capacity = (.ended, { f with isHeld := false })) ∨
    (f.isHeld = false ∧ f.read capacity = (.ended, f)) := by
  unfold read
  cases hheld : f.isHeld with
  | false => exact .inr (.inr (.inr ⟨rfl, rfl⟩))
  | true =>
    cases hretained : f.retained capacity with
    | cons e rest => exact .inl ⟨e, rest, rfl, rfl, rfl⟩
    | nil =>
      cases hopen : f.isOpen with
      | true => exact .inr (.inl ⟨rfl, rfl, rfl, rfl⟩)
      | false => exact .inr (.inr (.inl ⟨rfl, rfl, rfl, rfl⟩))

/-- A subscription that was told of the end is over. -/
theorem isHeld_of_ended (h : (f.read capacity).1 = .ended) :
    (f.read capacity).2.isHeld = false := by
  rcases f.read_cases capacity with ⟨_, _, -, -, hread⟩ | ⟨-, -, -, hread⟩ | ⟨-, -, -, hread⟩ |
    ⟨hheld, hread⟩
  · rw [hread] at h
    cases h
  · rw [hread] at h
    cases h
  · rw [hread]
  · rwa [hread]

/-! ## Feeds that are given up -/

theorem isHeld_next (capacity : Nat) (h : f.isHeld = false) (view : View α) :
    (f.next capacity view).isHeld = false := by
  cases view with
  | publish e =>
    simp only [next]
    split
    · exact h
    · exact h
  | read =>
    have hread : f.read capacity = (.ended, f) := by simp [read, h]
    simp only [next, hread, h]
  | leave => rfl
  | close => exact h

/-- A subscription that is over stays over. -/
theorem isHeld_after (h : f.isHeld = false) (views : List (View α)) :
    (f.after capacity views).isHeld = false := by
  induction views generalizing f with
  | nil => exact h
  | cons view views ih => exact ih (isHeld_next capacity h view)

/-- Nobody reads anything from a feed that is not held. -/
theorem readings_of_not_held (capacity : Nat) (h : f.isHeld = false) (views : List (View α)) :
    ∀ reading ∈ f.readings capacity views, reading = .ended := by
  induction views generalizing f with
  | nil => nofun
  | cons view views ih =>
    have hrest := ih (isHeld_next capacity h view)
    cases view with
    | read =>
      have hread : f.read capacity = (.ended, f) := by simp [read, h]
      intro reading hmem
      rcases List.mem_cons.1 hmem with rfl | hmem
      · rw [hread]
      · exact hrest reading hmem
    | publish e => exact hrest
    | leave => exact hrest
    | close => exact hrest

/-! ## Order -/

theorem retained_sublist : (f.retained capacity).Sublist f.unread := List.drop_sublist ..

/-- What is received was unread before or is published before the close, and keeps that order. -/
theorem received_sublist (capacity : Nat) (f : Feed α) (views : List (View α)) :
    ((f.readings capacity views).filterMap Reading.event?).Sublist
      (f.unread ++ if f.isOpen then offered views else []) := by
  induction views generalizing f with
  | nil => exact List.nil_sublist _
  | cons view views ih =>
    have hrest := ih (f.next capacity view)
    cases view with
    | publish e =>
      cases hopen : f.isOpen with
      | true => simpa [readings, next, hopen, offered] using hrest
      | false => simpa [readings, next, hopen] using hrest
    | read =>
      rcases f.read_cases capacity with ⟨e, rest, -, hretained, hread⟩ | ⟨-, -, -, hread⟩ |
        ⟨-, -, -, hread⟩ | ⟨-, hread⟩
      · have hunread : (e :: rest).Sublist f.unread := hretained ▸ f.retained_sublist
        simp only [next, hread] at hrest
        simp only [readings, next, hread, offered]
        exact (hrest.cons_cons e).trans (hunread.append (.refl _))
      all_goals
        simp only [next, hread] at hrest
        simp only [readings, next, hread, offered]
        exact hrest
    | leave => exact hrest
    | close =>
      have hclosed : ((f.readings capacity (.close :: views)).filterMap Reading.event?).Sublist
          f.unread := by simpa [readings, next] using hrest
      exact hclosed.trans (List.sublist_append_left ..)

/-- What is unread in the end is the end of what was unread before or is published before the
close. -/
theorem unread_suffix (capacity : Nat) (f : Feed α) (views : List (View α)) :
    (f.after capacity views).unread <:+
      f.unread ++ if f.isOpen then offered views else [] := by
  induction views generalizing f with
  | nil =>
    cases hopen : f.isOpen <;> simp [after, offered]
  | cons view views ih =>
    have hrest := ih (f.next capacity view)
    cases view with
    | publish e =>
      cases hopen : f.isOpen with
      | true => simpa [after, next, hopen, offered] using hrest
      | false => simpa [after, next, hopen] using hrest
    | read =>
      have hopen : (f.next capacity .read).isOpen = f.isOpen := by
        rcases f.read_cases capacity with ⟨_, _, -, -, hread⟩ | ⟨-, -, -, hread⟩ |
          ⟨-, -, -, hread⟩ | ⟨-, hread⟩ <;> simp only [next, hread]
      have hunread : (f.next capacity .read).unread <:+ f.unread := by
        rcases f.read_cases capacity with ⟨e, rest, -, hretained, hread⟩ | ⟨-, -, -, hread⟩ |
          ⟨-, -, -, hread⟩ | ⟨-, hread⟩
        · have hsuffix : e :: rest <:+ f.unread := hretained ▸ List.drop_suffix ..
          simp only [next, hread]
          exact (List.suffix_cons e rest).trans hsuffix
        all_goals
          simp only [next, hread]
          exact List.suffix_rfl
      rw [hopen] at hrest
      obtain ⟨passed, hpassed⟩ := hunread
      refine hrest.trans ⟨passed, ?_⟩
      rw [← List.append_assoc, hpassed]
      rfl
    | leave => exact hrest
    | close =>
      have hclosed : (f.after capacity (.close :: views)).unread <:+ f.unread := by
        simpa [after, next] using hrest
      exact hclosed.trans (by cases f.isOpen <;> simp [offered])

/-! ## After the close -/

/-- What stays retained after a read on which an event was found. -/
theorem retained_tail {e : α} {rest : List α} (h : f.retained capacity = e :: rest) :
    retained capacity { f with unread := rest } = rest := by
  have hlength := congrArg List.length h
  rw [retained, List.length_drop, List.length_cons] at hlength
  have hfits : rest.length - capacity = 0 := by omega
  rw [retained, hfits, List.drop_zero]

/-- Once the channel is closed a subscription that is not given up gets the retained events, one for
each read, and after them no more. -/
theorem readings_of_closed (hopen : f.isOpen = false) (hheld : f.isHeld) {views : List (View α)}
    (hstays : .leave ∉ views) (i : Nat) (hi : i < (f.readings capacity views).length) :
    (f.readings capacity views)[i] = (f.retained capacity)[i]?.elim .ended .event := by
  induction views generalizing f i with
  | nil => exact absurd hi (Nat.not_lt_zero _)
  | cons view views ih =>
    have hrest : .leave ∉ views := fun hmem => hstays (List.mem_cons_of_mem _ hmem)
    cases view with
    | leave => exact absurd List.mem_cons_self hstays
    | publish e =>
      have hnext : f.next capacity (.publish e) = f := by simp [next, hopen]
      simp only [readings, hnext] at hi ⊢
      exact ih hopen hheld hrest i hi
    | close =>
      have hnext : f.next capacity .close = f := by
        cases f
        cases hopen
        rfl
      simp only [readings, hnext] at hi ⊢
      exact ih hopen hheld hrest i hi
    | read =>
      rcases f.read_cases capacity with ⟨e, rest, -, hretained, hread⟩ | ⟨-, -, hopen', -⟩ |
        ⟨-, hretained, -, hread⟩ | ⟨hnot, -⟩
      · simp only [readings, next, hread] at hi ⊢
        rw [hretained]
        cases i with
        | zero => rfl
        | succ i =>
          have htail := ih (f := { f with unread := rest }) hopen hheld hrest i
            (Nat.lt_of_succ_lt_succ hi)
          rw [retained_tail hretained] at htail
          exact htail
      · rw [hopen] at hopen'
        cases hopen'
      · simp only [readings, next, hread] at hi ⊢
        rw [hretained]
        cases i with
        | zero => rfl
        | succ i =>
          have hended := readings_of_not_held capacity (f := { f with isHeld := false }) rfl views
          exact hended _ (List.getElem_mem (Nat.lt_of_succ_lt_succ hi))
      · rw [hheld] at hnot
        cases hnot

end Feed

end StableSupply
