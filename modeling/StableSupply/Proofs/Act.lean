import StableSupply.Ledger.Access

/-! # Outcomes of actions

`act.Ensures s Q E`: started in `s`, the action gives a value that satisfies `Q` or fails with an
error that satisfies `E`, each together with the state it leaves. Every way of building an action
has an equation that says what it ensures (`ensures_bind`, `ensures_on`, `ensures_attempt`, …), so a
statement about a program is computed along its text down to the requests it makes. -/

namespace StableSupply

/-! ## Results in sequence -/

section Results

variable {ε α β : Type} {x : Except ε α} {f : α → Except ε β}

/-- A value comes of two steps exactly if each gives one. -/
theorem bind_eq_ok {b : β} : (x >>= f) = .ok b ↔ ∃ a, x = .ok a ∧ f a = .ok b := by
  cases x with
  | error e => exact ⟨nofun, fun ⟨a, h, _⟩ => nomatch h⟩
  | ok a =>
    constructor
    · exact fun h => ⟨a, rfl, h⟩
    · rintro ⟨_, ⟨⟩, h⟩
      exact h

/-- Two steps fail with the first that does. -/
theorem bind_eq_error {e : ε} :
    (x >>= f) = .error e ↔ x = .error e ∨ ∃ a, x = .ok a ∧ f a = .error e := by
  cases x with
  | error d =>
    constructor
    · rintro ⟨⟩
      exact .inl rfl
    · rintro (⟨⟨⟩⟩ | ⟨_, ⟨⟩, _⟩)
      rfl
  | ok a =>
    constructor
    · exact fun h => .inr ⟨a, rfl, h⟩
    · rintro (⟨⟨⟩⟩ | ⟨_, ⟨⟩, h⟩)
      exact h

end Results

namespace Act

variable {S P ε δ α β : Type}

/-- From the state `s`, the action gives a value with `Q` or fails with `E`, each of the state after
it. -/
def Ensures (act : Act S ε α) (s : S) (Q : α → S → Prop) (E : ε → S → Prop) : Prop :=
  match act.apply s with
  | (.ok a, s') => Q a s'
  | (.error e, s') => E e s'

variable {act : Act S ε α} {s s' : S} {Q : α → S → Prop} {E : ε → S → Prop}

/-- What an action ensures may be weakened. -/
theorem Ensures.mono {Q' : α → S → Prop} {E' : ε → S → Prop} (h : act.Ensures s Q E)
    (hQ : ∀ a s', Q a s' → Q' a s') (hE : ∀ e s', E e s' → E' e s') : act.Ensures s Q' E' := by
  unfold Ensures at h ⊢
  split at h
  · exact hQ _ _ h
  · exact hE _ _ h

/-- What an action ensures in two ways it ensures in both at once. -/
theorem Ensures.and {Q' : α → S → Prop} {E' : ε → S → Prop} (h : act.Ensures s Q E)
    (h' : act.Ensures s Q' E') :
    act.Ensures s (fun a s' => Q a s' ∧ Q' a s') fun e s' => E e s' ∧ E' e s' := by
  unfold Ensures at h h' ⊢
  split <;> simp_all only [and_self]

/-! ## Reading an outcome off -/

theorem Ensures.of_ok {a : α} (h : act.Ensures s Q E) (ha : act.apply s = (.ok a, s')) :
    Q a s' := by
  simpa [Ensures, ha] using h

theorem Ensures.of_error {e : ε} (h : act.Ensures s Q E) (he : act.apply s = (.error e, s')) :
    E e s' := by
  simpa [Ensures, he] using h

/-- What is said of value and error alike is said of the outcome. -/
theorem ensures_iff {R : Except ε α → S → Prop} :
    act.Ensures s (fun a => R (.ok a)) (fun e => R (.error e)) ↔
      R (act.apply s).1 (act.apply s).2 := by
  unfold Ensures
  rcases act.apply s with ⟨_ | _, _⟩ <;> rfl

/-- Every action ensures its own outcome. -/
theorem ensures_apply (act : Act S ε α) (s : S) :
    act.Ensures s (fun a s' => act.apply s = (.ok a, s'))
      fun e s' => act.apply s = (.error e, s') := by
  unfold Ensures
  split <;> assumption

/-! ## Steps of an action -/

theorem apply_get (s : S) : (get : Act S ε S).apply s = (.ok s, s) := rfl

theorem apply_modify (f : S → S) (s : S) : (modify f : Act S ε PUnit).apply s = (.ok ⟨⟩, f s) := rfl

theorem apply_bind (act : Act S ε α) (f : α → Act S ε β) (s : S) :
    (act >>= f).apply s =
      match act.apply s with
      | (.ok a, s') => (f a).apply s'
      | (.error e, s') => (.error e, s') := by
  simp only [apply, ExceptT.run_bind, StateT.run_bind]
  rcases act.run.run s with ⟨_ | _, _⟩ <;> rfl

theorem apply_bind_pure (act : Act S ε α) (f : α → β) (s : S) :
    (act >>= fun a => pure (f a)).apply s = ((act.apply s).1.map f, (act.apply s).2) := by
  rw [apply_bind]
  rcases act.apply s with ⟨_ | _, _⟩
  · rfl
  · rfl

theorem apply_liftExcept (result : Except ε α) (s : S) :
    (liftM result : Act S ε α).apply s = (result, s) := by
  cases result <;> rfl

@[simp] theorem ensures_pure {a : α} : (pure a : Act S ε α).Ensures s Q E ↔ Q a s := Iff.rfl

@[simp] theorem ensures_throw {e : ε} : (throw e : Act S ε α).Ensures s Q E ↔ E e s := Iff.rfl

@[simp] theorem ensures_get {Q : S → S → Prop} :
    (get : Act S ε S).Ensures s Q E ↔ Q s s := Iff.rfl

@[simp] theorem ensures_modify {f : S → S} {Q : PUnit → S → Prop} :
    (modify f : Act S ε PUnit).Ensures s Q E ↔ Q ⟨⟩ (f s) := Iff.rfl

/-- What the first action ensures must be enough for the second. -/
@[simp] theorem ensures_bind {f : α → Act S ε β} {Q : β → S → Prop} :
    (act >>= f).Ensures s Q E ↔ act.Ensures s (fun a s' => (f a).Ensures s' Q E) E := by
  rw [Ensures, apply_bind, Ensures]
  rcases act.apply s with ⟨_ | _, _⟩ <;> rfl

@[simp] theorem ensures_map {f : α → β} {Q : β → S → Prop} :
    (f <$> act).Ensures s Q E ↔ act.Ensures s (fun a s' => Q (f a) s') E := by
  rw [map_eq_pure_bind, ensures_bind]
  rfl

@[simp] theorem ensures_liftExcept {result : Except ε α} :
    (liftM result : Act S ε α).Ensures s Q E ↔
      match result with
      | .ok a => Q a s
      | .error e => E e s := by
  cases result <;> rfl

/-! ## Actions made from others -/

theorem apply_failingWith (convert : δ → ε) (act : Act S δ α) (s : S) :
    (act.failingWith convert).apply s = ((act.apply s).1.mapError convert, (act.apply s).2) := rfl

theorem apply_attempt (act : Act S δ α) (s : S) :
    (act.attempt : Act S ε _).apply s = (.ok (act.apply s).1, (act.apply s).2) := rfl

theorem apply_on (part : S → P) (put : P → S → S) (act : Act P ε α) (s : S) :
    (act.on part put).apply s = ((act.apply (part s)).1, put (act.apply (part s)).2 s) := rfl

@[simp] theorem ensures_failingWith {convert : δ → ε} {act : Act S δ α} :
    (act.failingWith convert).Ensures s Q E ↔ act.Ensures s Q fun e s' => E (convert e) s' := by
  rw [Ensures, apply_failingWith, Ensures]
  rcases act.apply s with ⟨_ | _, _⟩ <;> rfl

@[simp] theorem ensures_attempt {act : Act S δ α} {Q : Except δ α → S → Prop} :
    act.attempt.Ensures s Q E ↔
      act.Ensures s (fun a s' => Q (.ok a) s') fun e s' => Q (.error e) s' := by
  rw [Ensures, apply_attempt, Ensures]
  rcases act.apply s with ⟨_ | _, _⟩ <;> rfl

/-- An action on a part ensures what it does of the part, put back. -/
@[simp] theorem ensures_on {part : S → P} {put : P → S → S} {act : Act P ε α} :
    (act.on part put).Ensures s Q E ↔
      act.Ensures (part s) (fun a p => Q a (put p s)) fun e p => E e (put p s) := by
  rw [Ensures, apply_on, Ensures]
  rcases act.apply (part s) with ⟨_ | _, _⟩ <;> rfl

end Act

end StableSupply
