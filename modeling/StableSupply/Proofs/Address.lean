import StableSupply.Address
import StableSupply.Proofs.Bytes
import StableSupply.Text.Scan

/-! # Addresses in text

A text is read as an address after the copies of `0x` and then of `0X` that it begins with have been
removed (`Address.Unmarked`). What is left is an address if it is forty hexadecimal digits, and no
digit is ever removed with the marks, so the texts of an address are marks followed by forty digits
(`Address.Spells`). Anything else is refused, for the first of three reasons that applies
(`Address.Refused`). `Address.parse_exact` says so of every text. -/

namespace StableSupply

/-! ## Digits -/

section Numbers

variable {α β : Type} {value? : α → Option Nat}

/-- The number that hexadecimal digits write after those of `n`. -/
def hexNumberFrom? (value? : α → Option Nat) (n : Nat) (digits : List α) : Option Nat :=
  digits.foldlM (fun n digit => do return n * 16 + (← value? digit)) n

theorem hexNumberFrom?_cons (n : Nat) (digit : α) (digits : List α) :
    hexNumberFrom? value? n (digit :: digits) =
      (value? digit).bind fun value => hexNumberFrom? value? (n * 16 + value) digits := by
  unfold hexNumberFrom?
  rw [List.foldlM_cons]
  cases value? digit <;> rfl

theorem hexNumberFrom?_map {f : β → α} (n : Nat) (digits : List β) :
    hexNumberFrom? value? n (digits.map f) = hexNumberFrom? (value? ∘ f) n digits :=
  List.foldlM_map ..

theorem hexNumberFrom?_congr {value?' : α → Option Nat} (n : Nat) {digits : List α}
    (h : ∀ digit ∈ digits, value? digit = value?' digit) :
    hexNumberFrom? value? n digits = hexNumberFrom? value?' n digits := by
  induction digits generalizing n with
  | nil => rfl
  | cons digit digits ih =>
    obtain ⟨hdigit, hdigits⟩ := List.forall_mem_cons.1 h
    rw [hexNumberFrom?_cons, hexNumberFrom?_cons, hdigit]
    exact congrArg _ (funext fun value => ih _ hdigits)

theorem isSome_of_hexNumberFrom? {n m : Nat} {digits : List α}
    (h : hexNumberFrom? value? n digits = some m) : ∀ digit ∈ digits, (value? digit).isSome := by
  induction digits generalizing n with
  | nil => nofun
  | cons digit digits ih =>
    rw [hexNumberFrom?_cons, Option.bind_eq_some_iff] at h
    obtain ⟨value, hvalue, hrest⟩ := h
    exact List.forall_mem_cons.2 ⟨hvalue ▸ rfl, ih hrest⟩

end Numbers

namespace Bytes

/-- The value of a byte that is a hexadecimal digit. -/
def digitValue? (byte : UInt8) : Option Nat := hexValue? byte.toNat

/-- The byte is a hexadecimal digit of either case. -/
def IsHexDigit (byte : UInt8) : Prop := (digitValue? byte).isSome

instance (byte : UInt8) : Decidable (IsHexDigit byte) := inferInstanceAs (Decidable (_ = true))

theorem IsHexDigit.exists_value {byte : UInt8} (h : IsHexDigit byte) :
    ∃ value, hexValue? byte.toNat = some value := Option.isSome_iff_exists.1 h

theorem hexValue?_of_not {byte : UInt8} (h : ¬ IsHexDigit byte) : hexValue? byte.toNat = none :=
  Option.not_isSome_iff_eq_none.1 h

theorem hexValue?_lt {code value : Nat} (h : hexValue? code = some value) :
    code < 128 ∧ value < 16 := by
  unfold hexValue? at h
  split at h
  · obtain rfl := Option.some.inj h
    omega
  · split at h
    · obtain rfl := Option.some.inj h
      omega
    · split at h
      · obtain rfl := Option.some.inj h
        omega
      · cases h

/-- Pairs of digits are read to as many bytes, which write the same number. -/
theorem ofHexPairs_of_digits (position : Nat) {digits : Bytes} (heven : digits.length % 2 = 0)
    (hdigits : ∀ digit ∈ digits, IsHexDigit digit) :
    ∃ bytes, ofHexPairs position digits = .ok bytes ∧ digits.length = 2 * bytes.length ∧
      ∀ n, hexNumberFrom? digitValue? n digits =
        some (bytes.foldl (fun n byte => n * 256 + byte.toNat) n) := by
  fun_induction ofHexPairs position digits with
  | case1 position high low rest hhigh =>
    obtain ⟨value, hvalue⟩ := (hdigits high List.mem_cons_self).exists_value
    rw [hhigh] at hvalue
    cases hvalue
  | case2 position high low rest hlow =>
    have hmem := List.mem_cons_of_mem high (List.mem_cons_self (a := low) (l := rest))
    obtain ⟨value, hvalue⟩ := (hdigits low hmem).exists_value
    rw [hlow] at hvalue
    cases hvalue
  | case3 position high low rest h l hl hh ih =>
    rw [List.length_cons, List.length_cons] at heven
    obtain ⟨bytes, hbytes, hlength, hnumber⟩ := ih (by omega) fun digit hdigit =>
      hdigits digit (List.mem_cons_of_mem _ (List.mem_cons_of_mem _ hdigit))
    refine ⟨UInt8.ofNat (h * 16 + l) :: bytes, ?_, ?_, fun n => ?_⟩
    · rw [hbytes]
      rfl
    · rw [List.length_cons, List.length_cons, List.length_cons, hlength]
      omega
    · have hbyte : (UInt8.ofNat (h * 16 + l)).toNat = h * 16 + l := by
        have hhlt := (hexValue?_lt hh).2
        have hllt := (hexValue?_lt hl).2
        rw [UInt8.toNat_ofNat', Nat.mod_eq_of_lt (by omega)]
      have hstep : (n * 16 + h) * 16 + l = n * 256 + (h * 16 + l) := by omega
      rw [hexNumberFrom?_cons, digitValue?, hh, Option.bind_some, hexNumberFrom?_cons,
        digitValue?, hl, Option.bind_some,
        hnumber, hstep, List.foldl_cons, hbyte]
  | case4 digits position hshort =>
    match digits with
    | [] => exact ⟨[], rfl, rfl, fun n => rfl⟩
    | [digit] => exact absurd heven Nat.one_ne_zero
    | high :: low :: rest => exact absurd rfl (hshort high low rest)

/-- The first byte that is no digit is reported with its position. -/
theorem ofHexPairs_of_badDigit (position : Nat) {before after : Bytes} {byte : UInt8}
    (heven : (before ++ byte :: after).length % 2 = 0)
    (hbefore : ∀ digit ∈ before, IsHexDigit digit) (hbyte : ¬ IsHexDigit byte) :
    ofHexPairs position (before ++ byte :: after) =
      .error (.badDigit byte (position + before.length)) := by
  match before with
  | [] =>
    cases after with
    | nil => exact absurd heven Nat.one_ne_zero
    | cons low rest =>
      rw [List.nil_append, ofHexPairs, hexValue?_of_not hbyte]
      rfl
  | [high] =>
    obtain ⟨h, hh⟩ := (hbefore high List.mem_cons_self).exists_value
    rw [List.singleton_append, ofHexPairs, hh, hexValue?_of_not hbyte]
    rfl
  | high :: low :: before =>
    rw [List.forall_mem_cons, List.forall_mem_cons] at hbefore
    obtain ⟨h, hh⟩ := hbefore.1.exists_value
    obtain ⟨l, hl⟩ := hbefore.2.1.exists_value
    rw [List.cons_append, List.cons_append, List.length_cons, List.length_cons] at heven
    have hrest : (before ++ byte :: after).length % 2 = 0 := by omega
    have ih := ofHexPairs_of_badDigit (position + 2) hrest hbefore.2.2 hbyte
    have hposition : position + 2 + before.length = position + (before.length + 1 + 1) := by omega
    rw [List.cons_append, List.cons_append, ofHexPairs, hh, hl]
    simp only [ih, hposition]
    rfl

/-- A byte string consists of digits, or there is a first byte in it that is none. -/
theorem digits_or_badDigit (bytes : Bytes) :
    (∀ digit ∈ bytes, IsHexDigit digit) ∨
      ∃ before byte after, bytes = before ++ byte :: after ∧
        (∀ digit ∈ before, IsHexDigit digit) ∧ ¬ IsHexDigit byte := by
  induction bytes with
  | nil => exact .inl nofun
  | cons byte rest ih =>
    by_cases hbyte : IsHexDigit byte
    · rcases ih with hrest | ⟨before, bad, after, rfl, hbefore, hbad⟩
      · exact .inl (List.forall_mem_cons.2 ⟨hbyte, hrest⟩)
      · exact .inr ⟨byte :: before, bad, after, rfl, List.forall_mem_cons.2 ⟨hbyte, hbefore⟩, hbad⟩
    · exact .inr ⟨[], byte, rest, rfl, nofun, hbyte⟩

theorem IsHexDigit.lt {byte : UInt8} (h : IsHexDigit byte) : byte.toNat < 128 := by
  obtain ⟨value, hvalue⟩ := h.exists_value
  exact (hexValue?_lt hvalue).1

theorem digitValue?_ascii {c : Char} (h : c.toNat < 128) :
    digitValue? (ascii c) = Text.hexDigit? c := by
  rw [digitValue?, toNat_ascii h, Text.hexDigit?]

/-- ASCII digits write the same number as characters and as bytes. -/
theorem hexNumberFrom?_ascii {cs : List Char} (h : ∀ c ∈ cs, c.toNat < 128) :
    hexNumberFrom? digitValue? 0 (cs.map ascii) = Text.hexNumber? cs := by
  rw [hexNumberFrom?_map]
  exact hexNumberFrom?_congr 0 fun c hc => digitValue?_ascii (h c hc)

theorem hexDigit?_hexDigit : ∀ value < 16, Text.hexDigit? (hexDigit value) = some value := by
  decide

theorem length_toHex (bytes : Bytes) : bytes.toHex.toList.length = 2 * bytes.length := by
  rw [toHex, String.toList_ofList]
  induction bytes with
  | nil => rfl
  | cons byte bytes ih =>
    rw [List.flatMap_cons, List.length_append, ih]
    simp only [List.length_cons, List.length_nil]
    omega

/-- The digits of a byte string write its number. -/
theorem hexNumber?_toHex (bytes : Bytes) :
    Text.hexNumber? bytes.toHex.toList = some bytes.toNat := by
  have hfrom (n : Nat) : hexNumberFrom? Text.hexDigit? n bytes.toHex.toList =
      some (bytes.foldl (fun n byte => n * 256 + byte.toNat) n) := by
    rw [toHex, String.toList_ofList]
    induction bytes generalizing n with
    | nil => rfl
    | cons byte bytes ih =>
      have hlt : byte.toNat < 256 := byte.toNat_lt
      have hstep : (n * 16 + byte.toNat / 16) * 16 + byte.toNat % 16 = n * 256 + byte.toNat := by
        omega
      rw [List.flatMap_cons, List.cons_append, List.singleton_append, hexNumberFrom?_cons,
        hexDigit?_hexDigit _ (by omega), Option.bind_some, hexNumberFrom?_cons,
        hexDigit?_hexDigit _ (by omega), Option.bind_some, hstep, ih, List.foldl_cons]
  exact hfrom 0

end Bytes

/-! ## Marks -/

/-- What is left of a list without the copies of `lead` that it begins with. -/
def Trims {α : Type} (lead l rest : List α) : Prop :=
  ∃ n, l = (List.replicate n lead).flatten ++ rest ∧ ¬ lead <+: rest

theorem exists_trims {α : Type} {lead : List α} (hlead : lead ≠ []) (l : List α) :
    ∃ rest, Trims lead l rest := by
  by_cases h : lead <+: l
  · obtain ⟨tail, htail⟩ := h
    have hshorter : tail.length < l.length := by
      have hpos := List.length_pos_iff.2 hlead
      rw [← htail, List.length_append]
      omega
    obtain ⟨rest, n, hn, hrest⟩ := exists_trims hlead tail
    refine ⟨rest, n + 1, ?_, hrest⟩
    rw [List.replicate_succ, List.flatten_cons, List.append_assoc, ← hn, htail]
  · exact ⟨l, 0, rfl, h⟩
termination_by l.length

/-- Copies of ASCII characters are copies of their bytes. -/
theorem Trims.ofText {lead cs rest : List Char} (hlead : ∀ c ∈ lead, c.toNat < 128)
    (h : Trims lead cs rest) :
    Trims (lead.map Bytes.ascii) (Bytes.ofText (.ofList cs)) (Bytes.ofText (.ofList rest)) := by
  obtain ⟨n, rfl, hrest⟩ := h
  refine ⟨n, ?_, fun hprefix => hrest (Bytes.prefix_of_ascii hlead hprefix)⟩
  have hcopies : ∀ c ∈ (List.replicate n lead).flatten, c.toNat < 128 := by
    intro c hc
    obtain ⟨copy, hcopy, hmem⟩ := List.mem_flatten.1 hc
    rw [List.eq_of_mem_replicate hcopy] at hmem
    exact hlead c hmem
  rw [String.ofList_append, Bytes.ofText_append, Bytes.ofText_ascii hcopies, List.map_flatten,
    List.map_replicate]

namespace Address

theorem dropPairs_of_trims {a b : UInt8} {bytes rest : Bytes} (h : Trims [a, b] bytes rest) :
    dropPairs a b bytes = rest := by
  obtain ⟨n, rfl, hrest⟩ := h
  induction n with
  | zero =>
    rw [List.replicate_zero, List.flatten_nil, List.nil_append]
    match rest with
    | [] => rfl
    | [x] => rfl
    | x :: y :: rest =>
      refine if_neg ?_
      rintro ⟨rfl, rfl⟩
      exact hrest (List.prefix_append [x, y] rest)
  | succ n ih =>
    rw [List.replicate_succ, List.flatten_cons]
    exact (if_pos ⟨rfl, rfl⟩).trans ih

/-- What is left of a text without the copies of `0x`, and then of `0X`, that it begins with. -/
def Unmarked (text rest : String) : Prop :=
  ∃ middle, Trims ['0', 'x'] text.toList middle ∧ Trims ['0', 'X'] middle rest.toList

theorem exists_unmarked (text : String) : ∃ rest, Unmarked text rest := by
  obtain ⟨middle, hmiddle⟩ := exists_trims (show ['0', 'x'] ≠ [] from nofun) text.toList
  obtain ⟨rest, hrest⟩ := exists_trims (show ['0', 'X'] ≠ [] from nofun) middle
  refine ⟨.ofList rest, middle, hmiddle, ?_⟩
  rwa [String.toList_ofList]

theorem Unmarked.dropPairs_eq {text rest : String} (h : Unmarked text rest) :
    dropPairs 48 88 (dropPairs 48 120 (Bytes.ofText text)) = Bytes.ofText rest := by
  obtain ⟨middle, hmiddle, hrest⟩ := h
  have hlower := hmiddle.ofText (by simp)
  have hupper := hrest.ofText (by simp)
  rw [String.ofList_toList] at hlower hupper
  rw [dropPairs_of_trims (a := 48) (b := 120) hlower]
  exact dropPairs_of_trims hupper

theorem Unmarked.unique {text rest rest' : String} (h : Unmarked text rest)
    (h' : Unmarked text rest') : rest = rest' :=
  Bytes.ofText_injective (h.dropPairs_eq.symm.trans h'.dropPairs_eq)

/-! ## Bytes of addresses -/

theorem toNat_inj {a b : Address} : a.toNat = b.toNat ↔ a = b := by
  cases a
  cases b
  simp

@[simp] theorem length_toBytes (a : Address) : a.toBytes.length = 20 := Bytes.length_ofNat ..

theorem toNat_toBytes (a : Address) : a.toBytes.toNat = a.toNat := Bytes.toNat_ofNat a.isLt

theorem toBytes_injective : Function.Injective toBytes := by
  intro a b h
  rw [← toNat_inj, ← toNat_toBytes, h, toNat_toBytes]

/-! ## Texts of addresses -/

/-- Marks, and then forty digits that write the address. -/
def Spells (text : String) (a : Address) : Prop :=
  ∃ (m n : Nat) (digits : List Char),
    text.toList =
      (List.replicate m ['0', 'x']).flatten ++ ((List.replicate n ['0', 'X']).flatten ++ digits) ∧
    digits.length = 40 ∧ Text.hexNumber? digits = some a.toNat

/-- Why what is left of a text is no address. The length is judged first if it is odd, then the
digits, and then the length again. -/
inductive Refused (rest : Bytes) : ParseError → Prop
  | oddLength (hodd : rest.length % 2 = 1) : Refused rest (.invalidHex .oddLength)
  | badDigit {before after : Bytes} {byte : UInt8} (heven : rest.length % 2 = 0)
      (hrest : rest = before ++ byte :: after)
      (hbefore : ∀ digit ∈ before, Bytes.IsHexDigit digit) (hbyte : ¬ Bytes.IsHexDigit byte) :
      Refused rest (.invalidHex (.badDigit byte before.length))
  | invalidLength (heven : rest.length % 2 = 0) (hdigits : ∀ digit ∈ rest, Bytes.IsHexDigit digit)
      (hlength : rest.length ≠ 40) : Refused rest (.invalidLength 20 (rest.length / 2))

theorem refused_or (rest : Bytes) :
    (∃ e, Refused rest e) ∨ rest.length = 40 ∧ ∀ digit ∈ rest, Bytes.IsHexDigit digit := by
  rcases Nat.mod_two_eq_zero_or_one rest.length with heven | hodd
  · rcases Bytes.digits_or_badDigit rest with hdigits | ⟨before, byte, after, hrest, hbefore, hbyte⟩
    · by_cases hlength : rest.length = 40
      · exact .inr ⟨hlength, hdigits⟩
      · exact .inl ⟨_, .invalidLength heven hdigits hlength⟩
    · exact .inl ⟨_, .badDigit heven hrest hbefore hbyte⟩
  · exact .inl ⟨_, .oddLength hodd⟩

/-! ## Reading -/

section Reading

variable {text rest : String}

theorem parse_of_ofHex_error {reason : HexError} (h : Unmarked text rest)
    (hhex : Bytes.ofHex (Bytes.ofText rest) = .error reason) :
    parse text = .error (.invalidHex reason) := by
  simp only [parse, h.dropPairs_eq, hhex]
  rfl

/-- Digits are read to bytes, which are an address if there are twenty of them. -/
theorem parse_of_digits (h : Unmarked text rest) (heven : (Bytes.ofText rest).length % 2 = 0)
    (hdigits : ∀ digit ∈ Bytes.ofText rest, Bytes.IsHexDigit digit) :
    ((Bytes.ofText rest).length ≠ 40 →
      parse text = .error (.invalidLength 20 ((Bytes.ofText rest).length / 2))) ∧
    ((Bytes.ofText rest).length = 40 → ∃ a, parse text = .ok a ∧
      hexNumberFrom? Bytes.digitValue? 0 (Bytes.ofText rest) = some a.toNat) := by
  obtain ⟨bytes, hbytes, hlength, hnumber⟩ := Bytes.ofHexPairs_of_digits 0 heven hdigits
  have hhex : Bytes.ofHex (Bytes.ofText rest) = .ok bytes := by
    rw [Bytes.ofHex, if_neg (by omega), hbytes]
  refine ⟨fun hne => ?_, fun heq => ?_⟩
  · have hnone : ofBytes? bytes = none := dif_neg (by omega)
    have hhalf : (Bytes.ofText rest).length / 2 = bytes.length := by omega
    simp only [parse, h.dropPairs_eq, hhex]
    change (Except.ok bytes >>= _) = _
    simp only [bind, Except.bind, hnone, hhalf]
    rfl
  · have htwenty : bytes.length = 20 := by omega
    refine ⟨⟨bytes.toNat, Bytes.toNat_lt_of_length htwenty⟩, ?_, hnumber 0⟩
    have hsome : ofBytes? bytes = some ⟨bytes.toNat, Bytes.toNat_lt_of_length htwenty⟩ :=
      dif_pos htwenty
    simp only [parse, h.dropPairs_eq, hhex]
    change (Except.ok bytes >>= _) = _
    simp only [bind, Except.bind, hsome]
    rfl

theorem parse_of_refused {e : ParseError} (h : Unmarked text rest)
    (hrefused : Refused (Bytes.ofText rest) e) : parse text = .error e := by
  cases hrefused with
  | oddLength hodd => exact parse_of_ofHex_error h (if_pos hodd)
  | badDigit heven hrest hbefore hbyte =>
    refine parse_of_ofHex_error h ?_
    rw [Bytes.ofHex, if_neg (by omega), hrest, Bytes.ofHexPairs_of_badDigit 0 (hrest ▸ heven)
      hbefore hbyte, Nat.zero_add]
  | invalidLength heven hdigits hlength => exact (parse_of_digits h heven hdigits).1 hlength

end Reading

theorem hexDigit?_lt {c : Char} (h : (Text.hexDigit? c).isSome) : c.toNat < 128 := by
  obtain ⟨value, hvalue⟩ := Option.isSome_iff_exists.1 h
  exact (Bytes.hexValue?_lt hvalue).1

/-- No mark begins in the digits, and none of `0x` in the marks after them. -/
theorem unmarked_of_digits {text : String} {m n : Nat} {digits : List Char}
    (htext : text.toList =
      (List.replicate m ['0', 'x']).flatten ++ ((List.replicate n ['0', 'X']).flatten ++ digits))
    (hdigits : ∀ c ∈ digits, (Text.hexDigit? c).isSome) : Unmarked text (.ofList digits) := by
  have hnoMark {c : Char} (hc : Text.hexDigit? c = none) : c ∉ digits := fun hmem => by
    have hsome := hdigits c hmem
    rw [hc] at hsome
    cases hsome
  refine ⟨_, ⟨m, htext, fun hmark => ?_⟩, n, congrArg _ String.toList_ofList.symm,
    fun hmark => ?_⟩
  · have hmem : 'x' ∈ (List.replicate n ['0', 'X']).flatten ++ digits :=
      hmark.subset (List.mem_cons_of_mem _ List.mem_cons_self)
    rcases List.mem_append.1 hmem with hmarks | hrest
    · obtain ⟨copy, hcopy, hx⟩ := List.mem_flatten.1 hmarks
      rw [List.eq_of_mem_replicate hcopy] at hx
      exact absurd hx (by decide)
    · exact hnoMark rfl hrest
  · rw [String.toList_ofList] at hmark
    exact hnoMark (c := 'X') rfl (hmark.subset (List.mem_cons_of_mem _ List.mem_cons_self))

theorem parse_eq_ok {text : String} {a : Address} : parse text = .ok a ↔ Spells text a := by
  constructor
  · intro h
    obtain ⟨rest, hrest⟩ := exists_unmarked text
    rcases refused_or (Bytes.ofText rest) with ⟨e, hrefused⟩ | ⟨hlength, hdigits⟩
    · rw [parse_of_refused hrest hrefused] at h
      cases h
    obtain ⟨b, hb, hnumber⟩ := (parse_of_digits hrest (by omega) hdigits).2 hlength
    obtain rfl : b = a := Except.ok.inj (hb.symm.trans h)
    -- The digits are known as bytes; below 128, each of them is a character.
    rw [← String.ofList_toList (s := rest)] at hlength hdigits hnumber
    have hascii := Bytes.ascii_of_ofText fun byte hbyte => (hdigits byte hbyte).lt
    rw [Bytes.ofText_ascii hascii] at hlength hnumber
    rw [List.length_map] at hlength
    rw [Bytes.hexNumberFrom?_ascii hascii] at hnumber
    obtain ⟨middle, ⟨m, hm, -⟩, n, hn, -⟩ := hrest
    exact ⟨m, n, rest.toList, hn ▸ hm, hlength, hnumber⟩
  · rintro ⟨m, n, digits, htext, hlength, hnumber⟩
    have hdigits : ∀ c ∈ digits, (Text.hexDigit? c).isSome := isSome_of_hexNumberFrom? hnumber
    have hascii : ∀ c ∈ digits, c.toNat < 128 := fun c hc => hexDigit?_lt (hdigits c hc)
    have hbytes := Bytes.ofText_ascii hascii
    have hforty : (Bytes.ofText (.ofList digits)).length = 40 := by
      rw [hbytes, List.length_map, hlength]
    have hhex : ∀ byte ∈ Bytes.ofText (.ofList digits), Bytes.IsHexDigit byte := by
      rw [hbytes, List.forall_mem_map]
      intro c hc
      rw [Bytes.IsHexDigit, Bytes.digitValue?_ascii (hascii c hc)]
      exact hdigits c hc
    obtain ⟨b, hb, hb'⟩ :=
      (parse_of_digits (unmarked_of_digits htext hdigits) (by omega) hhex).2 hforty
    rw [hbytes, Bytes.hexNumberFrom?_ascii hascii, hnumber, Option.some.injEq, toNat_inj] at hb'
    rw [hb, hb']

theorem parse_eq_error {text rest : String} {e : ParseError} (h : Unmarked text rest) :
    parse text = .error e ↔ Refused (Bytes.ofText rest) e := by
  refine ⟨fun he => ?_, parse_of_refused h⟩
  rcases refused_or (Bytes.ofText rest) with ⟨e', hrefused⟩ | ⟨hlength, hdigits⟩
  · rw [parse_of_refused h hrefused] at he
    obtain rfl := Except.error.inj he
    exact hrefused
  · obtain ⟨a, ha, -⟩ := (parse_of_digits h (by omega) hdigits).2 hlength
    rw [ha] at he
    cases he

theorem spells_text (a : Address) : Spells a.text a := by
  have hmark : "0x".toList = ['0', 'x'] := rfl
  refine ⟨1, 0, a.toBytes.toHex.toList, ?_, ?_, ?_⟩
  · rw [text, String.toList_append, hmark, List.replicate_one, List.replicate_zero,
      List.flatten_singleton, List.flatten_nil, List.nil_append]
  · rw [Bytes.length_toHex, length_toBytes]
  · rw [Bytes.hexNumber?_toHex, toNat_toBytes]

/-- The texts of an address are marks followed by its forty digits. Every other text is refused, for
what is left of it without the marks. An address is read back from its text. -/
theorem parse_exact :
    (∀ text a, parse text = .ok a ↔ Spells text a) ∧
    (∀ text, ∃ rest, ∀ r, Unmarked text r ↔ r = rest) ∧
    (∀ text rest, Unmarked text rest →
      ∀ e, parse text = .error e ↔ Refused (Bytes.ofText rest) e) ∧
    ∀ a, parse a.text = .ok a := by
  refine ⟨fun text a => parse_eq_ok, fun text => ?_, fun text rest h e => parse_eq_error h,
    fun a => parse_eq_ok.2 (spells_text a)⟩
  obtain ⟨rest, hrest⟩ := exists_unmarked text
  exact ⟨rest, fun r => ⟨fun hr => hr.unique hrest, fun hr => hr ▸ hrest⟩⟩

/-- A mark of `0x` that stands after one of `0X` is left, and its second byte is no digit. -/
theorem parse_exact_marks :
    Unmarked "0x0x0X0xé" "0xé" ∧
    parse "0x0x0X0xé" = .error (.invalidHex (.badDigit 120 1)) := by
  have hrest : Unmarked "0x0x0X0xé" "0xé" :=
    ⟨['0', 'X', '0', 'x', 'é'], ⟨2, by decide, by decide⟩, 1, by decide, by decide⟩
  have hrefused : Refused (Bytes.ofText "0xé") (.invalidHex (.badDigit 120 1)) :=
    @Refused.badDigit _ [48] [0xc3, 0xa9] 120 (by decide) (by decide)
      (List.forall_mem_singleton.2 (by decide)) (by decide)
  exact ⟨hrest, (parse_exact.2.2.1 _ _ hrest _).2 hrefused⟩

end Address

end StableSupply
