import Mathlib.Data.List.Basic
import Mathlib.Tactic.Common
import StableSupply.Toml.Reader
import StableSupply.Toml.Writer

/-! # Strings that are read back

What the writer puts between quotes spells the text character by character (`Spells`): a character
stands for itself or is escaped, and of the quotes that stand for themselves there are never three in
a row. What spells a text is read as that text, on one line (`basicText_of_spells`,
`literalText_of_spells`) or on several (`linesText_of_spells`). So every text is read back from its
quoted form (`text_quoteText`). -/

namespace StableSupply.Toml

/-! ## Characters -/

theorem isPlain_of_not_isControl {c : Char} (h : isControl c = false) (hline : c ≠ '\n') :
    isPlain c = true := by
  by_cases htab : c = '\t'
  · simp [isPlain, htab]
  · simp [isControl, htab, hline] at h
    simp [isPlain]
    omega

theorem codeChar?_control {c : Char} (h : isControl c = true) :
    codeChar? ['0', '0', Nat.digitChar (c.toNat / 16), (Nat.digitChar (c.toNat % 16)).toUpper] =
      some c := by
  have hall : ∀ n < 128, codeChar?
      ['0', '0', Nat.digitChar (n / 16), (Nat.digitChar (n % 16)).toUpper] =
        some (Char.ofNat n) := by decide
  have hlt : c.toNat < 128 := by
    simp [isControl] at h
    omega
  rw [hall _ hlt, Char.ofNat_toNat]

/-- What is read as a character after a backslash, whatever follows. It is not the end of a line. -/
structure Escapes (d : Char) (e : List Char) (c : Char) : Prop where
  inLine : ∀ rest, lineBreak? (skipBlank (d :: rest)) = none
  reads : ∀ rest, escapeSequence (d :: (e ++ rest)) = some (c, rest)

theorem escapes_of_escape? {c : Char} {e : List Char} (h : escape? c = some e) :
    ∃ d e', e = d :: e' ∧ Escapes d e' c := by
  unfold escape? at h
  split_ifs at h with hb ht hf hr hbackslash hcontrol
  · exact ⟨'b', [], (Option.some.inj h).symm, fun _ => rfl, fun _ => by rw [hb]; rfl⟩
  · exact ⟨'t', [], (Option.some.inj h).symm, fun _ => rfl, fun _ => by rw [ht]; rfl⟩
  · exact ⟨'f', [], (Option.some.inj h).symm, fun _ => rfl, fun _ => by rw [hf]; rfl⟩
  · exact ⟨'r', [], (Option.some.inj h).symm, fun _ => rfl, fun _ => by rw [hr]; rfl⟩
  · exact ⟨'\\', [], (Option.some.inj h).symm, fun _ => rfl, fun _ => by rw [hbackslash]; rfl⟩
  · refine ⟨'u', _, (Option.some.inj h).symm, fun _ => rfl, fun _ => ?_⟩
    simp only [List.cons_append, List.nil_append, escapeSequence, codeChar?_control hcontrol,
      Option.map_some]

theorem plain_of_escape? {c : Char} (h : escape? c = none) (hline : c ≠ '\n') :
    isPlain c = true ∧ c ≠ '\\' := by
  unfold escape? at h
  split_ifs at h with hb ht hf hr hbackslash hcontrol
  exact ⟨isPlain_of_not_isControl (Bool.not_eq_true _ ▸ hcontrol) hline, hbackslash⟩

/-! ## Spellings -/

/-- What is written between quotes spells a text, if so many of these quotes stand for themselves
right before it. Only on several lines may quotes and line feeds stand for themselves, and escapes
are for double quotes. -/
inductive Spells (quote : Char) (manyLines : Bool) : (quotes : Nat) → List Char → List Char → Prop
  | nil {n : Nat} : Spells quote manyLines n [] []
  | quote {n : Nat} {w cs : List Char} (hlines : manyLines = true) (hn : n < 2)
    (h : Spells quote manyLines (n + 1) w cs) : Spells quote manyLines n (quote :: w) (quote :: cs)
  | lineFeed {n : Nat} {w cs : List Char} (hlines : manyLines = true)
    (h : Spells quote manyLines 0 w cs) : Spells quote manyLines n ('\n' :: w) ('\n' :: cs)
  | plain {n : Nat} {c : Char} {w cs : List Char} (hc : isPlain c = true) (hne : c ≠ quote)
    (hback : quote = '"' → c ≠ '\\') (h : Spells quote manyLines 0 w cs) :
    Spells quote manyLines n (c :: w) (c :: cs)
  | escaped {n : Nat} {d c : Char} {e w cs : List Char} (hquote : quote = '"')
    (he : Escapes d e c) (h : Spells quote manyLines 0 w cs) :
    Spells quote manyLines n ('\\' :: d :: e ++ w) (c :: cs)

/-- Every text is spelt by what is written for it between double quotes. -/
theorem spells_escaped (manyLines : Bool) (n : Nat) (cs : List Char) :
    Spells '"' manyLines n (escaped manyLines n cs) cs := by
  induction cs generalizing n with
  | nil => exact .nil
  | cons c cs ih =>
    unfold escaped
    split_ifs with hquote hfew hline hmany
    · rw [Bool.and_eq_true, decide_eq_true_eq] at hfew
      subst hquote
      exact .quote hfew.1 hfew.2 (ih _)
    · subst hquote
      exact .escaped (e := []) rfl ⟨fun _ => rfl, fun _ => rfl⟩ (ih 0)
    · subst hline
      exact .lineFeed hmany (ih 0)
    · subst hline
      exact .escaped (e := []) rfl ⟨fun _ => rfl, fun _ => rfl⟩ (ih 0)
    · split
      · next he =>
        obtain ⟨d, e, rfl, hescapes⟩ := escapes_of_escape? he
        exact .escaped rfl hescapes (ih 0)
      · next he =>
        obtain ⟨hplain, hback⟩ := plain_of_escape? he hline
        exact .plain hplain hquote (fun _ => hback) (ih 0)

/-- A line without control characters and single quotes spells itself between single quotes. -/
theorem spells_literal {cs : List Char} (hcontrol : ∀ c ∈ cs, isControl c = false)
    (hquote : '\'' ∉ cs) (hline : '\n' ∉ cs) : Spells '\'' false 0 cs cs := by
  induction cs with
  | nil => exact .nil
  | cons c cs ih =>
    rw [List.forall_mem_cons] at hcontrol
    rw [List.mem_cons, not_or] at hquote hline
    exact .plain (isPlain_of_not_isControl hcontrol.1 (Ne.symm hline.1)) (Ne.symm hquote.1)
      (fun h => absurd h (by decide)) (ih hcontrol.2 hquote.2 hline.2)

theorem length_takeWhile_le_longestRun (quote : Char) (cs : List Char) :
    (cs.takeWhile (· = quote)).length ≤ longestRun quote cs := by
  cases cs with
  | nil => exact Nat.le_refl 0
  | cons c cs => exact Nat.le_max_left ..

/-- A text without control characters and without three single quotes in a row spells itself on
several lines between single quotes. -/
theorem spells_literalLines {n : Nat} {cs : List Char} (hcontrol : ∀ c ∈ cs, isControl c = false)
    (hfirst : n + (cs.takeWhile (· = '\'')).length ≤ 2) (hlongest : longestRun '\'' cs ≤ 2) :
    Spells '\'' true n cs cs := by
  induction cs generalizing n with
  | nil => exact .nil
  | cons c cs ih =>
    rw [List.forall_mem_cons] at hcontrol
    have hlongest' : longestRun '\'' cs ≤ 2 := Nat.le_trans (Nat.le_max_right ..) hlongest
    have hrest : Spells '\'' true 0 cs cs := by
      refine ih hcontrol.2 ?_ hlongest'
      rw [Nat.zero_add]
      exact Nat.le_trans (length_takeWhile_le_longestRun ..) hlongest'
    by_cases hquote : c = '\''
    · subst hquote
      rw [List.takeWhile_cons_of_pos (by simp), List.length_cons] at hfirst
      exact .quote rfl (by omega) (ih hcontrol.2 (by omega) hlongest')
    · by_cases hline : c = '\n'
      · subst hline
        exact .lineFeed rfl hrest
      · exact .plain (isPlain_of_not_isControl hcontrol.1 hline) hquote
          (fun h => absurd h (by decide)) hrest

/-! ## One line -/

theorem basicText_of_spells {n fuel : Nat} {w cs : List Char} (h : Spells '"' false n w cs)
    (hfuel : w.length < fuel) (rest : List Char) :
    basicText fuel (w ++ '"' :: rest) = some (cs, rest) := by
  induction h generalizing fuel with
  | nil =>
    obtain ⟨fuel, rfl⟩ := Nat.exists_eq_add_one_of_ne_zero (Nat.ne_zero_of_lt hfuel)
    rfl
  | quote hlines => cases hlines
  | lineFeed hlines => cases hlines
  | plain hc hne hback h ih =>
    obtain ⟨fuel, rfl⟩ := Nat.exists_eq_add_one_of_ne_zero (Nat.ne_zero_of_lt hfuel)
    have hrest := @ih fuel (by simpa using hfuel)
    simp only [List.cons_append, basicText, if_neg hne, if_neg (hback rfl), if_pos hc, hrest, cons,
      Option.map_some]
  | escaped hquote he h ih =>
    obtain ⟨fuel, rfl⟩ := Nat.exists_eq_add_one_of_ne_zero (Nat.ne_zero_of_lt hfuel)
    have hrest := @ih fuel (by simp at hfuel; omega)
    simp [basicText, he.reads, hrest, cons]

theorem literalText_of_spells {n : Nat} {w cs : List Char} (h : Spells '\'' false n w cs)
    (rest : List Char) : literalText (w ++ '\'' :: rest) = some (cs, rest) := by
  induction h with
  | nil => rfl
  | quote hlines => cases hlines
  | lineFeed hlines => cases hlines
  | plain hc hne hback h ih =>
    simp only [List.cons_append, literalText, if_neg hne, if_pos hc, ih, cons, Option.map_some]
  | escaped hquote => cases hquote

/-! ## Several lines -/

section Lines

variable {quote : Char} {n : Nat} {w cs : List Char}

/-- What closes a string on several lines, and the line. -/
def closed (quote : Char) (rest : List Char) : List Char :=
  quote :: quote :: quote :: '\n' :: rest

/-- Whatever does not stand for quotes alone begins with a run of quotes that is too short to close
the string. -/
theorem run_of_spells (hquote : quote = '"' ∨ quote = '\'') (hn : n ≤ 2)
    (h : Spells quote true n w cs) (rest : List Char) :
    (∃ k, n + k ≤ 2 ∧ w = List.replicate k quote ∧ cs = List.replicate k quote) ∨
      n + ((w ++ closed quote rest).takeWhile (· = quote)).length ≤ 2 := by
  induction h with
  | nil => exact .inl ⟨0, hn, rfl, rfl⟩
  | quote _ hlt _ ih =>
    rw [List.cons_append, List.takeWhile_cons_of_pos (by simp), List.length_cons]
    rcases ih (by omega) with ⟨k, hk, rfl, rfl⟩ | hrun
    · exact .inl ⟨k + 1, by omega, rfl, rfl⟩
    · exact .inr (by omega)
  | lineFeed =>
    right
    rw [List.cons_append, List.takeWhile_cons_of_neg (by rcases hquote with rfl | rfl <;> decide)]
    exact hn
  | plain _ hne =>
    right
    rw [List.cons_append, List.takeWhile_cons_of_neg (by simpa using hne)]
    exact hn
  | escaped =>
    right
    rw [List.cons_append, List.cons_append,
      List.takeWhile_cons_of_neg (by rcases hquote with rfl | rfl <;> decide)]
    exact hn

/-- A string ends where all that is left stands for quotes, at most two of them. -/
theorem closing?_of_spells (hquote : quote = '"' ∨ quote = '\'') (hn : n ≤ 2)
    (h : Spells quote true n w cs) (rest : List Char) :
    closing? quote (w ++ closed quote rest) = some (cs, '\n' :: rest) ∨
      closing? quote (w ++ closed quote rest) = none := by
  rcases run_of_spells hquote hn h rest with ⟨k, hk, rfl, rfl⟩ | hrun
  · left
    have hk2 : k = 0 ∨ k = 1 ∨ k = 2 := by omega
    rcases hquote with rfl | rfl <;> rcases hk2 with rfl | rfl | rfl <;> rfl
  · exact .inr (if_pos (by omega))

theorem lineBreak?_cons_of_ne {c : Char} (hline : c ≠ '\n') (hreturn : c ≠ '\r')
    (cs : List Char) : lineBreak? (c :: cs) = none := by
  unfold lineBreak?
  split <;> simp_all

theorem lineBreak?_of_isPlain {c : Char} (h : isPlain c = true) (cs : List Char) :
    lineBreak? (c :: cs) = none := by
  refine lineBreak?_cons_of_ne ?_ ?_ cs <;>
    · rintro rfl
      exact absurd h (by decide)

/-- Only a line feed stands for a line break. -/
theorem lineBreak?_of_spells (hquote : quote = '"' ∨ quote = '\'') (h : Spells quote true n w cs)
    (hline : '\n' ∉ cs) (rest : List Char) : lineBreak? (w ++ closed quote rest) = none := by
  cases h with
  | nil => rcases hquote with rfl | rfl <;> rfl
  | quote => rcases hquote with rfl | rfl <;> rfl
  | lineFeed => exact absurd List.mem_cons_self hline
  | plain hc => exact lineBreak?_of_isPlain hc _
  | escaped => rfl

section Steps

variable {fuel : Nat} {c : Char} {cs : List Char}

theorem linesText_of_closing {found : List Char × List Char}
    (h : closing? quote cs = some found) : linesText quote (fuel + 1) cs = some found := by
  simp only [linesText, h]

theorem linesText_lineFeed (h : closing? quote ('\n' :: cs) = none) :
    linesText quote (fuel + 1) ('\n' :: cs) = cons '\n' (linesText quote fuel cs) := by
  simp only [linesText, h, lineBreak?]

theorem linesText_plain (h : closing? quote (c :: cs) = none) (hc : isPlain c = true)
    (hback : quote = '"' → c ≠ '\\') :
    linesText quote (fuel + 1) (c :: cs) = cons c (linesText quote fuel cs) := by
  have hnone : ¬ (c = '\\' ∧ quote = '"') := fun hboth => hback hboth.2 hboth.1
  simp only [linesText, h, lineBreak?_of_isPlain hc, if_neg hnone, if_pos hc]

/-- No escape that the writer makes is at the end of a line. -/
theorem linesText_escaped {d : Char} {e : List Char}
    (h : closing? '"' ('\\' :: d :: (e ++ cs)) = none) (he : Escapes d e c) :
    linesText '"' (fuel + 1) ('\\' :: d :: (e ++ cs)) = cons c (linesText '"' fuel cs) := by
  have hbreak : lineBreak? ('\\' :: d :: (e ++ cs)) = none := rfl
  simp only [linesText, h, hbreak, he.inLine, he.reads, and_self, if_true]
  rfl

end Steps

/-- What is still to be read ends the string or begins with a character of the text. -/
theorem linesText_of_step {fuel : Nat} {rest : List Char} (hquote : quote = '"' ∨ quote = '\'')
    (hn : n ≤ 2) (h : Spells quote true n w cs)
    (hstep : closing? quote (w ++ closed quote rest) = none →
      linesText quote (fuel + 1) (w ++ closed quote rest) = some (cs, '\n' :: rest)) :
    linesText quote (fuel + 1) (w ++ closed quote rest) = some (cs, '\n' :: rest) := by
  rcases closing?_of_spells hquote hn h rest with hclosing | hclosing
  · exact linesText_of_closing hclosing
  · exact hstep hclosing

theorem linesText_of_spells {fuel : Nat} (hquote : quote = '"' ∨ quote = '\'') (hn : n ≤ 2)
    (h : Spells quote true n w cs) (hfuel : w.length < fuel) (rest : List Char) :
    linesText quote fuel (w ++ closed quote rest) = some (cs, '\n' :: rest) := by
  induction h generalizing fuel with
  | nil =>
    obtain ⟨fuel, rfl⟩ := Nat.exists_eq_add_one_of_ne_zero (Nat.ne_zero_of_lt hfuel)
    rcases hquote with rfl | rfl <;> rfl
  | quote hlines hlt h ih =>
    obtain ⟨fuel, rfl⟩ := Nat.exists_eq_add_one_of_ne_zero (Nat.ne_zero_of_lt hfuel)
    refine linesText_of_step hquote hn (.quote hlines hlt h) fun hclosing => ?_
    have hplain : isPlain quote = true := by rcases hquote with rfl | rfl <;> decide
    have hback : quote = '"' → quote ≠ '\\' := by
      rintro rfl
      decide
    rw [List.cons_append] at hclosing ⊢
    rw [linesText_plain hclosing hplain hback, ih hlt (Nat.lt_of_succ_lt_succ hfuel)]
    rfl
  | lineFeed hlines h ih =>
    obtain ⟨fuel, rfl⟩ := Nat.exists_eq_add_one_of_ne_zero (Nat.ne_zero_of_lt hfuel)
    refine linesText_of_step hquote hn (.lineFeed hlines h) fun hclosing => ?_
    rw [List.cons_append] at hclosing ⊢
    rw [linesText_lineFeed hclosing, ih (Nat.zero_le 2) (Nat.lt_of_succ_lt_succ hfuel)]
    rfl
  | plain hc hne hback h ih =>
    obtain ⟨fuel, rfl⟩ := Nat.exists_eq_add_one_of_ne_zero (Nat.ne_zero_of_lt hfuel)
    refine linesText_of_step hquote hn (.plain hc hne hback h) fun hclosing => ?_
    rw [List.cons_append] at hclosing ⊢
    rw [linesText_plain hclosing hc hback, ih (Nat.zero_le 2) (Nat.lt_of_succ_lt_succ hfuel)]
    rfl
  | @escaped _ d c e w cs hq he h ih =>
    obtain ⟨fuel, rfl⟩ := Nat.exists_eq_add_one_of_ne_zero (Nat.ne_zero_of_lt hfuel)
    refine linesText_of_step hquote hn (.escaped hq he h) fun hclosing => ?_
    subst hq
    have hfuel' : w.length < fuel := by
      simp at hfuel
      omega
    simp only [List.cons_append, List.append_assoc] at hclosing ⊢
    rw [linesText_escaped hclosing he, ih (Nat.zero_le 2) hfuel']
    rfl

end Lines

/-! ## Quoted texts -/

/-- A text between its quotes, up to the end of the line, is read as that text. -/
def ReadsBack (quoted : List Char) (cs : List Char) : Prop :=
  ∀ rest, text (quoted ++ '\n' :: rest) = some (.ofList cs, '\n' :: rest)

theorem readsBack_basic {n : Nat} {w cs : List Char} (h : Spells '"' false n w cs) :
    ReadsBack ('"' :: w ++ ['"']) cs := by
  intro rest
  -- the quotes at both ends are not the first two of three
  have htext : text ('"' :: (w ++ '"' :: '\n' :: rest)) =
      (basicText ((w ++ '"' :: '\n' :: rest).length + 1) (w ++ '"' :: '\n' :: rest)).bind
        fun found => some (.ofList found.1, found.2) := by
    cases h with
    | nil => rfl
    | quote hlines => cases hlines
    | lineFeed hlines => cases hlines
    | plain _ hne => simp [text, hne]
    | escaped => rfl
  simp only [List.cons_append, List.append_assoc, List.nil_append]
  rw [htext, basicText_of_spells h (by rw [List.length_append]; omega)]
  rfl

theorem readsBack_literal {n : Nat} {w cs : List Char} (h : Spells '\'' false n w cs) :
    ReadsBack ('\'' :: w ++ ['\'']) cs := by
  intro rest
  have htext : text ('\'' :: (w ++ '\'' :: '\n' :: rest)) =
      (literalText (w ++ '\'' :: '\n' :: rest)).bind
        fun found => some (.ofList found.1, found.2) := by
    cases h with
    | nil => rfl
    | quote hlines => cases hlines
    | lineFeed hlines => cases hlines
    | plain _ hne => simp [text, hne]
    | escaped hquote => cases hquote
  simp only [List.cons_append, List.append_assoc, List.nil_append]
  rw [htext, literalText_of_spells h]
  rfl

theorem readsBack_lines {quote : Char} {start w cs : List Char}
    (hquote : quote = '"' ∨ quote = '\'') (h : Spells quote true 0 w cs)
    (hstart : (if cs.contains '\n' then ['\n'] else []) = start) :
    ReadsBack ([quote, quote, quote] ++ start ++ w ++ [quote, quote, quote]) cs := by
  intro rest
  have htext : text (quote :: quote :: quote :: (start ++ (w ++ closed quote rest))) =
      (openedLines quote (start ++ (w ++ closed quote rest))).bind
        fun found => some (.ofList found.1, found.2) := by
    rcases hquote with rfl | rfl <;> rfl
  have hopened : openedLines quote (start ++ (w ++ closed quote rest)) =
      some (cs, '\n' :: rest) := by
    have hbody : (lineBreak? (start ++ (w ++ closed quote rest))).getD
        (start ++ (w ++ closed quote rest)) = w ++ closed quote rest := by
      split_ifs at hstart with hline <;> subst hstart
      · rfl
      · rw [List.nil_append, lineBreak?_of_spells hquote h (by simpa using hline)]
        rfl
    rw [openedLines, hbody, linesText_of_spells hquote (Nat.zero_le 2) h (by simp; omega)]
  simp only [List.cons_append, List.append_assoc, List.nil_append]
  show text (quote :: quote :: quote :: (start ++ (w ++ closed quote rest))) = _
  rw [htext, hopened]
  rfl

/-- Every text is read back from its quoted form. -/
theorem text_quoteText (s : String) (rest : List Char) :
    text ((quoteText s).toList ++ '\n' :: rest) = some (s, '\n' :: rest) := by
  have hback : ReadsBack (quoteText s).toList s.toList := by
    rw [quoteText, String.toList_ofList]
    generalize hstart : (if s.toList.contains '\n' then ['\n'] else []) = start
    split_ifs with hbasic hliteral hlines hliteralLines hmany
    · exact readsBack_basic (spells_escaped ..)
    · simp only [Bool.and_eq_true, Bool.not_eq_true', List.any_eq_false, List.contains_eq_mem,
        decide_eq_false_iff_not] at hliteral
      obtain ⟨⟨hcontrol, hquote⟩, hline⟩ := hliteral
      exact readsBack_literal (spells_literal (by simpa using hcontrol) hquote hline)
    · exact readsBack_lines (.inl rfl) (spells_escaped ..) hstart
    · simp only [Bool.and_eq_true, Bool.not_eq_true', List.any_eq_false, decide_eq_true_eq]
        at hliteralLines
      obtain ⟨hcontrol, hlongest⟩ := hliteralLines
      have hfirst : 0 + (s.toList.takeWhile (· = '\'')).length ≤ 2 := by
        rw [Nat.zero_add]
        exact Nat.le_trans (length_takeWhile_le_longestRun ..) hlongest
      exact readsBack_lines (.inr rfl)
        (spells_literalLines (by simpa using hcontrol) hfirst hlongest) hstart
    · exact readsBack_lines (.inl rfl) (spells_escaped ..) hstart
    · exact readsBack_basic (spells_escaped ..)
  rw [hback rest, String.ofList_toList]

end StableSupply.Toml
