import Mathlib.Data.List.Basic
import Mathlib.Tactic.Common
import StableSupply.Toml.Reader
import StableSupply.Toml.Writer

/-! # Integers that are read back

An integer at the end of a line is neither a text, nor a boolean, nor a date, nor a float: after its
digits none of these goes on (`date_eq_none`, `float_eq_none`). So an integer of 64 bits is read back
from its digits (`scalar_integer`). -/

namespace StableSupply.Toml

open Text (word)

/-! ## Digits -/

theorem ne_of_isDigit {c d : Char} (hd : d.isDigit = true) (hc : c.isDigit = false) : d ≠ c := by
  rintro rfl
  rw [hd] at hc
  cases hc

/-- Digits as a number is written with them. -/
structure Numeral (ds : List Char) : Prop where
  digits : ∀ d ∈ ds, d.isDigit = true
  nonempty : ds ≠ []
  leading : ∀ tail, ds = '0' :: tail → tail = []

theorem toDigits_head_ne_zero {n : Nat} (hn : n ≠ 0) :
    ∃ d tail, Nat.toDigits 10 n = d :: tail ∧ d ≠ '0' := by
  induction n using Nat.strongRecOn with
  | _ n ih =>
    by_cases hlt : n < 10
    · exact ⟨_, [], Nat.toDigits_of_lt_base hlt, mt Nat.digitChar_eq_zero.1 hn⟩
    · obtain ⟨d, tail, hdigits, hd⟩ := ih (n / 10) (by omega) (by omega)
      rw [Nat.toDigits_of_base_le (by decide) (by omega), hdigits]
      exact ⟨d, _, rfl, hd⟩

theorem numeral_toDigits (n : Nat) : Numeral (Nat.toDigits 10 n) where
  digits _ := Nat.isDigit_of_mem_toDigits (by decide) (by decide)
  nonempty := Nat.toDigits_ne_nil
  leading tail h := by
    by_cases hn : n = 0
    · rw [hn] at h
      exact (List.cons.inj h).2.symm
    · obtain ⟨d, _, hdigits, hd⟩ := toDigits_head_ne_zero hn
      rw [hdigits] at h
      exact absurd (List.cons.inj h).1 hd

theorem hexDigit?_of_isDigit {d : Char} (hd : d.isDigit = true) :
    Text.hexDigit? d = some (d.toNat - '0'.toNat) := by
  rw [Char.isDigit_iff_toNat] at hd
  exact if_pos hd

theorem ofDigits_toDigits (n : Nat) : ofDigits 10 (Nat.toDigits 10 n) = n := by
  calc ofDigits 10 (Nat.toDigits 10 n)
    _ = Nat.ofDigitChars 10 (Nat.toDigits 10 n) 0 := by
      rw [Nat.ofDigitChars_eq_foldl, ofDigits]
      refine List.foldl_ext _ _ _ fun value d hd => ?_
      rw [hexDigit?_of_isDigit ((numeral_toDigits n).digits d hd), Nat.mul_comm]
      rfl
    _ = n := Nat.ofDigitChars_ten_toDigits

/-! ## Numbers at the end of a line -/

theorem moreDigits_of_digits {ds : List Char} (h : ∀ d ∈ ds, d.isDigit = true)
    (rest : List Char) :
    moreDigits Char.isDigit (ds ++ '\n' :: rest) = some (ds, '\n' :: rest) := by
  induction ds with
  | nil => simp [moreDigits]
  | cons d ds ih =>
    rw [List.forall_mem_cons] at h
    have hd : d ≠ '_' := ne_of_isDigit h.1 (by decide)
    rw [List.cons_append]
    unfold moreDigits
    split
    · simp_all
    · simp_all
    · simp_all [cons]

theorem fixedDigits_eq_some {count low high n : Nat} {c : Char} (ds rest : List Char)
    {after : List Char} (hc : c.isDigit = false)
    (h : fixedDigits count low high (ds ++ c :: rest) = some (n, after)) :
    count ≤ ds.length ∧ after = ds.drop count ++ c :: rest := by
  dsimp only [fixedDigits] at h
  split at h
  · next hcond =>
    obtain ⟨hlength, hall, -⟩ := hcond
    have hle : count ≤ ds.length := by
      -- else the character after the digits is one of those taken
      by_contra hlt
      have hmem : c ∈ (ds ++ c :: rest).take count := by
        rw [List.take_append, List.mem_append]
        right
        rw [show count - ds.length = (count - ds.length - 1) + 1 by omega, List.take_succ_cons]
        exact List.mem_cons_self
      rw [List.all_eq_true] at hall
      rw [hall c hmem] at hc
      cases hc
    refine ⟨hle, ?_⟩
    rw [← List.drop_append_of_le_length hle]
    exact (Prod.mk.inj (Option.some.inj h)).2.symm
  · cases h

section Endings

variable {ds : List Char} (rest : List Char)

theorem Numeral.exists_cons (h : Numeral ds) : ∃ d tail, ds = d :: tail ∧ d.isDigit = true := by
  obtain ⟨d, tail, rfl⟩ := List.exists_cons_of_ne_nil h.nonempty
  exact ⟨d, tail, rfl, h.digits d List.mem_cons_self⟩

theorem Numeral.wholeDigits_eq (h : Numeral ds) :
    wholeDigits (ds ++ '\n' :: rest) = some (ds, '\n' :: rest) := by
  obtain ⟨d, tail, rfl, hd⟩ := h.exists_cons
  by_cases hzero : d = '0'
  · subst hzero
    rw [h.leading tail rfl]
    rfl
  · rw [List.cons_append]
    unfold wholeDigits
    split
    · next heq => exact absurd (List.cons.inj heq).1 hzero
    · rw [groupedDigits, if_pos hd,
        moreDigits_of_digits fun c hc => h.digits c (List.mem_cons_of_mem d hc)]
      rfl

/-- A sign and the digits after it, if the sign is a minus. -/
def signed (negative : Bool) (ds : List Char) : List Char := if negative then '-' :: ds else ds

theorem skipSign_signed (h : Numeral ds) (negative : Bool) :
    skipSign (signed negative ds ++ '\n' :: rest) = (negative, ds ++ '\n' :: rest) := by
  cases negative with
  | true => rfl
  | false =>
    obtain ⟨d, tail, rfl, hd⟩ := h.exists_cons
    have hminus : d ≠ '-' := ne_of_isDigit hd (by decide)
    have hplus : d ≠ '+' := ne_of_isDigit hd (by decide)
    simp [signed, skipSign, hminus, hplus]

/-- It begins with a minus sign or a digit. -/
theorem signed_eq_cons (h : Numeral ds) (negative : Bool) :
    ∃ c tail, signed negative ds = c :: tail ∧
      ∀ mark : Char, mark ≠ '-' → mark.isDigit = false → c ≠ mark := by
  cases negative with
  | true => exact ⟨'-', ds, rfl, fun _ hminus _ => hminus.symm⟩
  | false =>
    obtain ⟨d, tail, rfl, hd⟩ := h.exists_cons
    exact ⟨d, tail, rfl, fun _ _ hmark => ne_of_isDigit hd hmark⟩

/-- Nothing but the end of the line follows a zero at the front. -/
theorem signed_zero {negative : Bool} {c : Char} {after : List Char} (h : Numeral ds)
    (hzero : signed negative ds ++ '\n' :: rest = '0' :: c :: after) : c = '\n' := by
  cases negative with
  | true => cases hzero
  | false =>
    obtain ⟨d, tail, rfl, -⟩ := h.exists_cons
    obtain ⟨rfl, htail⟩ := List.cons.inj hzero
    rw [h.leading tail rfl] at htail
    exact (List.cons.inj htail).1.symm

/-! ## What a number is not -/

theorem word_eq_none {c d : Char} {cs tail : List Char} (h : d ≠ c) :
    word (c :: cs) (d :: tail) = none := if_neg h.symm

/-- After some of its digits more digits or the end of the line follow. -/
theorem word_eq_none_of_fixedDigits {negative : Bool} {count low high n : Nat}
    {after : List Char} (h : Numeral ds) (mark : Char) (hcount : 0 < count)
    (hmark : mark.isDigit = false) (hline : mark ≠ '\n')
    (hfixed : fixedDigits count low high (signed negative ds ++ '\n' :: rest) = some (n, after)) :
    word [mark] after = none := by
  cases negative with
  | true =>
    obtain ⟨hle, -⟩ := fixedDigits_eq_some [] (ds ++ '\n' :: rest) (by decide) hfixed
    exact absurd hle (by simp; omega)
  | false =>
    obtain ⟨-, hafter⟩ := fixedDigits_eq_some ds rest (by decide) hfixed
    rw [hafter]
    cases hdrop : ds.drop count with
    | nil => exact word_eq_none hline.symm
    | cons d tail =>
      have hd : d.isDigit = true := h.digits d (List.mem_of_mem_drop (hdrop ▸ List.mem_cons_self))
      exact word_eq_none (ne_of_isDigit hd hmark)

theorem date_eq_none (h : Numeral ds) (negative : Bool) :
    date (signed negative ds ++ '\n' :: rest) = none := by
  have hday : skipDay (signed negative ds ++ '\n' :: rest) = none := by
    unfold skipDay
    cases hyear : fixedDigits 4 0 9999 (signed negative ds ++ '\n' :: rest) with
    | none => rfl
    | some found =>
      simp [word_eq_none_of_fixedDigits rest h '-' (by decide) (by decide) (by decide) hyear]
  have htime : skipTime (signed negative ds ++ '\n' :: rest) = none := by
    unfold skipTime
    cases hhour : fixedDigits 2 0 23 (signed negative ds ++ '\n' :: rest) with
    | none => rfl
    | some found =>
      simp [word_eq_none_of_fixedDigits rest h ':' (by decide) (by decide) (by decide) hhour]
  rw [date, hday, htime]
  rfl

theorem float_eq_none (h : Numeral ds) (negative : Bool) :
    float (signed negative ds ++ '\n' :: rest) = none := by
  obtain ⟨d, tail, hds, hd⟩ := h.exists_cons
  have hinf : word ['i', 'n', 'f'] (ds ++ '\n' :: rest) = none := by
    rw [hds]
    exact word_eq_none (ne_of_isDigit hd (by decide))
  have hnan : word ['n', 'a', 'n'] (ds ++ '\n' :: rest) = none := by
    rw [hds]
    exact word_eq_none (ne_of_isDigit hd (by decide))
  simp [float, skipSign_signed rest h, hinf, hnan, h.wholeDigits_eq, fraction, exponent]

theorem integer_eq (h : Numeral ds) (negative : Bool) :
    integer (signed negative ds ++ '\n' :: rest) =
      (integer64 negative (ofDigits 10 ds)).map (·, '\n' :: rest) := by
  unfold integer
  split
  · next hzero => exact absurd (signed_zero rest h hzero) (by decide)
  · next hzero => exact absurd (signed_zero rest h hzero) (by decide)
  · next hzero => exact absurd (signed_zero rest h hzero) (by decide)
  · rw [skipSign_signed rest h]
    simp only [h.wholeDigits_eq, Option.bind_eq_bind, Option.bind_some]
    cases integer64 negative (ofDigits 10 ds) <;> rfl

theorem text_eq_none (h : Numeral ds) (negative : Bool) :
    text (signed negative ds ++ '\n' :: rest) = none := by
  obtain ⟨c, tail, hsigned, hne⟩ := signed_eq_cons h negative
  have hdouble : c ≠ '"' := hne _ (by decide) (by decide)
  have hsingle : c ≠ '\'' := hne _ (by decide) (by decide)
  simp [hsigned, text, hdouble, hsingle]

theorem boolean_eq_none (h : Numeral ds) (negative : Bool) :
    boolean (signed negative ds ++ '\n' :: rest) = none := by
  obtain ⟨c, tail, hsigned, hne⟩ := signed_eq_cons h negative
  have htrue : word ['t', 'r', 'u', 'e'] (c :: (tail ++ '\n' :: rest)) = none :=
    word_eq_none (hne _ (by decide) (by decide))
  have hfalse : word ['f', 'a', 'l', 's', 'e'] (c :: (tail ++ '\n' :: rest)) = none :=
    word_eq_none (hne _ (by decide) (by decide))
  simp [hsigned, boolean, htrue, hfalse]

end Endings

theorem toList_toString (n : Int) :
    (toString n).toList = signed (n < 0) (Nat.toDigits 10 n.natAbs) := by
  cases n with
  | ofNat n =>
    show (Nat.repr n).toList = _
    simp [signed]
  | negSucc n =>
    show ("-" ++ Nat.repr (n + 1)).toList = _
    simp [signed]

theorem scalar_integer {n : Int} (hmin : -2 ^ 63 ≤ n) (hmax : n < 2 ^ 63) (rest : List Char) :
    scalar ((toString n).toList ++ '\n' :: rest) =
      some (.scalar (.integer n), '\n' :: rest) := by
  have hvalue : integer64 (n < 0) n.natAbs = some (.scalar (.integer n)) := by
    have hn : (if decide (n < 0) then -(n.natAbs : Int) else n.natAbs) = n := by
      by_cases hnegative : n < 0
      · rw [if_pos (decide_eq_true hnegative)]
        omega
      · rw [if_neg (by simpa using hnegative)]
        omega
    rw [integer64, hn]
    exact if_pos ⟨hmin, hmax⟩
  have h := numeral_toDigits n.natAbs
  rw [toList_toString, scalar, text_eq_none rest h, boolean_eq_none rest h, date_eq_none rest h,
    float_eq_none rest h, integer_eq rest h, ofDigits_toDigits, hvalue]
  rfl

end StableSupply.Toml
