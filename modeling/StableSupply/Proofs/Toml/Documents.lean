import StableSupply.Proofs.Toml.Numbers
import StableSupply.Proofs.Toml.Strings

/-! # Documents that are read back

A document of well-formed sections is read line by line (`ReadsAs`): the header of each section, its
entries, and an empty line before the next. Put together the lines make the tables that the sections
are (`foldlM_lines`). So a document holds the sections that it was written from (`parse?_render`). -/

namespace StableSupply.Toml

open Text (word)

/-! ## Well-formed sections -/

/-- A key that needs no quotes. -/
def IsBare (key : String) : Prop := key ≠ "" ∧ key.toList.all isKeyChar = true

instance (key : String) : Decidable (IsBare key) := inferInstanceAs (Decidable (_ ∧ _))

/-- The scalar is a value of its own, not a literal as it was written, and a document can hold it. -/
inductive Scalar.IsProper : Scalar → Prop
  | integer {n : Int} (hmin : -2 ^ 63 ≤ n) (hmax : n < 2 ^ 63) : IsProper (.integer n)
  | text (s : String) : IsProper (.text s)
  | boolean (b : Bool) : IsProper (.boolean b)

def Section.keys (s : Section) : List String := s.entries.map (·.1)

/-- What a section holds. -/
def Section.table (s : Section) : Value :=
  .table .headed (s.entries.map fun (key, v) => (key, .scalar v))

@[simp] theorem Section.toFields_nil : Section.toFields [] = [] := rfl

@[simp] theorem Section.toFields_cons (s : Section) (sections : List Section) :
    Section.toFields (s :: sections) = (s.name, s.table) :: Section.toFields sections := rfl

/-- Names without quotes, each of them once, and values that a document can hold. -/
structure Section.WellFormed (s : Section) : Prop where
  name : IsBare s.name
  keys : ∀ key ∈ s.keys, IsBare key
  distinct : s.keys.Nodup
  values : ∀ e ∈ s.entries, e.2.IsProper

/-! ## Values -/

theorem scalar_render {s : Scalar} (h : s.IsProper) (rest : List Char) :
    scalar (s.render.toList ++ '\n' :: rest) = some (.scalar s, '\n' :: rest) := by
  cases h with
  | integer hmin hmax => exact scalar_integer hmin hmax rest
  | text s =>
    show scalar ((quoteText s).toList ++ '\n' :: rest) = _
    rw [scalar, text_quoteText]
    rfl
  | boolean b => cases b <;> rfl

/-- What a scalar begins with is no blank and opens neither a list nor a table. -/
theorem render_eq_cons {s : Scalar} (h : s.IsProper) :
    ∃ c tail, s.render.toList = c :: tail ∧ isBlank c = false ∧ c ≠ '[' ∧ c ≠ '\x7b' := by
  cases h with
  | @integer n =>
    show ∃ c tail, (toString n).toList = _ ∧ _
    obtain ⟨c, tail, hsigned, hne⟩ := signed_eq_cons (numeral_toDigits n.natAbs) (n < 0)
    rw [toList_toString, hsigned]
    have hblank : isBlank c = false := by
      simp only [isBlank, Bool.or_eq_false_iff, decide_eq_false_iff_not]
      exact ⟨hne _ (by decide) (by decide), hne _ (by decide) (by decide)⟩
    exact ⟨c, tail, rfl, hblank, hne _ (by decide) (by decide), hne _ (by decide) (by decide)⟩
  | text s =>
    show ∃ c tail, (quoteText s).toList = _ ∧ _
    rw [quoteText, String.toList_ofList]
    split_ifs <;> exact ⟨_, _, rfl, by decide⟩
  | boolean b => cases b <;> exact ⟨_, _, rfl, by decide⟩

theorem skipBlank_cons_of_not {c : Char} (h : isBlank c = false) (cs : List Char) :
    skipBlank (c :: cs) = c :: cs := List.dropWhile_cons_of_neg (by simp [h])

theorem skipBlank_render {s : Scalar} (h : s.IsProper) (rest : List Char) :
    skipBlank (s.render.toList ++ rest) = s.render.toList ++ rest := by
  obtain ⟨c, tail, hrender, hblank, -⟩ := render_eq_cons h
  rw [hrender]
  exact skipBlank_cons_of_not hblank _

theorem value_render {s : Scalar} (h : s.IsProper) (depth : Nat) (rest : List Char) :
    value depth (s.render.toList ++ '\n' :: rest) = some (.scalar s, '\n' :: rest) := by
  have hscalar := scalar_render h rest
  obtain ⟨c, tail, hrender, -, hlist, htable⟩ := render_eq_cons h
  rw [hrender] at hscalar ⊢
  cases depth with
  | zero => exact hscalar
  | succ depth =>
    rw [← hscalar]
    unfold value
    split <;> simp_all

/-! ## Keys -/

section Keys

variable {key : String} {c : Char}

theorem ne_of_isKeyChar {d : Char} (hd : isKeyChar d = true) (hc : isKeyChar c = false) :
    d ≠ c := by
  rintro rfl
  rw [hd] at hc
  cases hc

theorem IsBare.keyChars (h : IsBare key) : ∀ c ∈ key.toList, isKeyChar c = true :=
  List.all_eq_true.1 h.2

theorem IsBare.exists_cons (h : IsBare key) :
    ∃ d tail, key.toList = d :: tail ∧ isKeyChar d = true := by
  obtain ⟨d, tail, hkey⟩ := List.exists_cons_of_ne_nil (mt String.toList_eq_nil_iff.1 h.1)
  exact ⟨d, tail, hkey, h.keyChars d (hkey ▸ List.mem_cons_self)⟩

theorem simpleKey_of_isBare (h : IsBare key) (hc : isKeyChar c = false) (rest : List Char) :
    simpleKey (key.toList ++ c :: rest) = some (key, c :: rest) := by
  have htake : (key.toList ++ c :: rest).takeWhile isKeyChar = key.toList := by
    rw [List.takeWhile_append_of_pos h.keyChars, List.takeWhile_cons_of_neg (by simp [hc]),
      List.append_nil]
  have hdrop : (key.toList ++ c :: rest).dropWhile isKeyChar = c :: rest := by
    rw [List.dropWhile_append_of_pos h.keyChars, List.dropWhile_cons_of_neg (by simp [hc])]
  have hnonempty : key.toList.isEmpty = false := by
    rw [List.isEmpty_eq_false_iff]
    exact mt String.toList_eq_nil_iff.1 h.1
  obtain ⟨d, tail, hkey, hd⟩ := h.exists_cons
  unfold simpleKey
  split
  · next hquote =>
    rw [hkey] at hquote
    exact absurd (List.cons.inj hquote).1 (ne_of_isKeyChar hd (by decide))
  · next hquote =>
    rw [hkey] at hquote
    exact absurd (List.cons.inj hquote).1 (ne_of_isKeyChar hd (by decide))
  · simp [htake, hdrop, hnonempty]

theorem skipBlank_of_isBare (h : IsBare key) (rest : List Char) :
    skipBlank (key.toList ++ rest) = key.toList ++ rest := by
  obtain ⟨d, tail, hkey, hd⟩ := h.exists_cons
  rw [hkey]
  refine skipBlank_cons_of_not ?_ _
  simp only [isBlank, Bool.or_eq_false_iff, decide_eq_false_iff_not]
  exact ⟨ne_of_isKeyChar hd (by decide), ne_of_isKeyChar hd (by decide)⟩

/-- A bare key is all of a key if no dot comes after it. -/
theorem dottedKey_of_isBare (h : IsBare key) (hc : isKeyChar c = false) {rest after : List Char}
    {next : Char} (hafter : skipBlank (c :: rest) = next :: after) (hdot : next ≠ '.')
    {limit : Nat} :
    dottedKey (limit + 1) (key.toList ++ c :: rest) = some (([], key), next :: after) := by
  simp [dottedKey, skipBlank_of_isBare h, simpleKey_of_isBare h hc, hafter, hdot]

end Keys

/-! ## Lines -/

theorem endLine_lineFeed (rest : List Char) : endLine ('\n' :: rest) = some rest := rfl

theorem line_blank (rest : List Char) : line ('\n' :: rest) = some (.blank, rest) := rfl

theorem line_header {name : String} (h : IsBare name) (rest : List Char) :
    line ('[' :: (name.toList ++ ']' :: '\n' :: rest)) = some (.header [] name, rest) := by
  have hkey : dottedKey depthLimit (name.toList ++ ']' :: '\n' :: rest) =
      some (([], name), ']' :: '\n' :: rest) :=
    dottedKey_of_isBare h (by decide) rfl (by decide)
  have hskip : skipBlank ('[' :: (name.toList ++ ']' :: '\n' :: rest)) =
      '[' :: (name.toList ++ ']' :: '\n' :: rest) := rfl
  obtain ⟨d, tail, hname, hd⟩ := h.exists_cons
  have hbracket : d ≠ '[' := ne_of_isKeyChar hd (by decide)
  have hclose : word [']'] (']' :: '\n' :: rest) = some ('\n' :: rest) := rfl
  simp only [line, hskip]
  split
  · simp_all
  · simp_all [endLine_lineFeed]
  · simp_all

/-- Where a bare key begins the line is not at its end. -/
theorem endLine_of_isBare {key : String} (h : IsBare key) (rest : List Char) :
    endLine (key.toList ++ rest) = none := by
  have hskip := skipBlank_of_isBare h rest
  obtain ⟨d, tail, hkey, hd⟩ := h.exists_cons
  rw [hkey, List.cons_append] at hskip ⊢
  have hbreak : lineBreak? (d :: (tail ++ rest)) = none :=
    lineBreak?_cons_of_ne (ne_of_isKeyChar hd (by decide)) (ne_of_isKeyChar hd (by decide)) _
  have hcomment : d ≠ '#' := ne_of_isKeyChar hd (by decide)
  simp [endLine, hskip, hbreak, hcomment]

theorem line_entry {key : String} (h : IsBare key) {v : Scalar} (hv : v.IsProper)
    (rest : List Char) :
    line (key.toList ++ ' ' :: '=' :: ' ' :: (v.render.toList ++ '\n' :: rest)) =
      some (.entry ⟨[], key, .scalar v⟩, rest) := by
  have hkey : dottedKey depthLimit
      (key.toList ++ ' ' :: '=' :: ' ' :: (v.render.toList ++ '\n' :: rest)) =
        some (([], key), '=' :: ' ' :: (v.render.toList ++ '\n' :: rest)) :=
    dottedKey_of_isBare h (by decide) rfl (by decide)
  have hentry : entry (value depthLimit)
      (key.toList ++ ' ' :: '=' :: ' ' :: (v.render.toList ++ '\n' :: rest)) =
        some (⟨[], key, .scalar v⟩, '\n' :: rest) := by
    have hequals : word ['='] ('=' :: ' ' :: (v.render.toList ++ '\n' :: rest)) =
        some (' ' :: (v.render.toList ++ '\n' :: rest)) := rfl
    have hskip : skipBlank (' ' :: (v.render.toList ++ '\n' :: rest)) =
        v.render.toList ++ '\n' :: rest := skipBlank_render hv _
    simp [entry, hkey, hequals, hskip, value_render hv]
  have hskip := skipBlank_of_isBare h (' ' :: '=' :: ' ' :: (v.render.toList ++ '\n' :: rest))
  have hend := endLine_of_isBare h (' ' :: '=' :: ' ' :: (v.render.toList ++ '\n' :: rest))
  obtain ⟨d, tail, hname, hd⟩ := h.exists_cons
  have hbracket : d ≠ '[' := ne_of_isKeyChar hd (by decide)
  simp only [line, hskip]
  split
  · simp_all
  · simp_all
  · simp [hend, hentry, endLine_lineFeed]

/-! ## Lines in sequence -/

/-- The characters are these lines, each of them ended. -/
def ReadsAs (cs : List Char) (found : List Line) : Prop :=
  ∀ fuel, cs.length < fuel → lines fuel cs = some found

theorem readsAs_nil : ReadsAs [] [] := by
  intro fuel hfuel
  obtain ⟨fuel, rfl⟩ := Nat.exists_eq_add_one_of_ne_zero (Nat.ne_zero_of_lt hfuel)
  rfl

theorem ReadsAs.cons {cs rest : List Char} {l : Line} {found : List Line} (h : ReadsAs rest found)
    (hline : line cs = some (l, rest)) (hlt : rest.length < cs.length) :
    ReadsAs cs (l :: found) := by
  intro fuel hfuel
  obtain ⟨fuel, rfl⟩ := Nat.exists_eq_add_one_of_ne_zero (Nat.ne_zero_of_lt hfuel)
  have hne : cs.isEmpty = false := by
    rw [List.isEmpty_eq_false_iff]
    exact List.ne_nil_of_length_pos (Nat.zero_lt_of_lt hlt)
  simp [lines, hne, hline, h fuel (by omega)]

/-- How an entry is written. -/
def entryChars (e : String × Scalar) : List Char :=
  e.1.toList ++ ' ' :: '=' :: ' ' :: (e.2.render.toList ++ ['\n'])

def entryLine (e : String × Scalar) : Line := .entry ⟨[], e.1, .scalar e.2⟩

/-- The lines of a section. -/
def Section.lines (s : Section) : List Line := .header [] s.name :: s.entries.map entryLine

theorem Section.toList_render (s : Section) :
    s.render.toList = '[' :: (s.name.toList ++ ']' :: '\n' :: s.entries.flatMap entryChars) := by
  have hentries : (s.entries.map fun (key, value) =>
      key ++ " = " ++ value.render ++ "\n").flatMap String.toList =
        s.entries.flatMap entryChars := by
    have hentry : (fun e : String × Scalar => (e.1 ++ " = " ++ e.2.render ++ "\n").toList) =
        entryChars := by
      funext e
      simp [entryChars]
    rw [List.flatMap_map]
    exact congrArg (s.entries.flatMap ·) hentry
  simp [Section.render, hentries]

theorem ReadsAs.entries {rest : List Char} {found : List Line} (h : ReadsAs rest found)
    {entries : List (String × Scalar)} (hkeys : ∀ e ∈ entries, IsBare e.1)
    (hvalues : ∀ e ∈ entries, e.2.IsProper) :
    ReadsAs (entries.flatMap entryChars ++ rest) (entries.map entryLine ++ found) := by
  induction entries with
  | nil => exact h
  | cons e entries ih =>
    rw [List.forall_mem_cons] at hkeys hvalues
    refine (ih hkeys.2 hvalues.2).cons ?_ (by simp [entryChars]; omega)
    simp only [List.flatMap_cons, entryChars, List.append_assoc, List.cons_append, List.nil_append]
    exact line_entry hkeys.1 hvalues.1 _

theorem ReadsAs.section {rest : List Char} {found : List Line} (h : ReadsAs rest found)
    {s : Section} (hs : s.WellFormed) :
    ReadsAs (s.render.toList ++ rest) (s.lines ++ found) := by
  have hentries := h.entries (List.forall_mem_map.1 hs.keys) hs.values
  refine hentries.cons ?_ (by simp [Section.toList_render]; omega)
  simp only [Section.toList_render, List.cons_append, List.append_assoc]
  exact line_header hs.name _

theorem readsAs_render {sections : List Section} (h : ∀ s ∈ sections, s.WellFormed) :
    ReadsAs (render sections).toList ([Line.blank].intercalate (sections.map Section.lines)) := by
  rw [render, String.toList_intercalate, List.map_map]
  induction sections with
  | nil => exact readsAs_nil
  | cons s sections ih =>
    rw [List.forall_mem_cons] at h
    cases sections with
    | nil =>
      have hread := readsAs_nil.section h.1
      simpa using hread
    | cons t sections =>
      have hread := ((ih h.2).cons (line_blank _) (by simp)).section h.1
      simpa using hread

/-! ## Putting lines together -/

section Drafts

variable {fields below : Fields} {name : String} {current : List String}

theorem lookup_append_self (hname : fields.lookup name = none) (v : Value) :
    (fields ++ [(name, v)]).lookup name = some v := by
  simp [List.lookup_append, hname]

/-- Names that are new stay new after another name. -/
theorem lookup_append_of_notMem {names : List String}
    (hnew : ∀ key ∈ names, fields.lookup key = none) (hname : name ∉ names) (v : Value) :
    ∀ key ∈ names, (fields ++ [(name, v)]).lookup key = none := by
  intro key hkey
  have hne : (key == name) = false := by
    rw [beq_eq_false_iff_ne]
    rintro rfl
    exact hname hkey
  simp [List.lookup_append, hnew key hkey, List.lookup_cons, hne]

theorem replace_append_self (hname : fields.lookup name = none) (v w : Value) :
    Fields.replace name w (fields ++ [(name, v)]) = fields ++ [(name, w)] := by
  have hsame : Fields.replace name w fields = fields := by
    rw [List.lookup_eq_none_iff] at hname
    refine List.map_congr_left (fun field hfield => if_neg ?_) |>.trans fields.map_id
    have hne := hname field hfield
    simp only [bne_iff_ne] at hne
    exact hne.symm
  have happend : Fields.replace name w (fields ++ [(name, v)]) =
      Fields.replace name w fields ++ [(name, w)] := by
    simp [Fields.replace]
  rw [happend, hsame]

theorem add?_header (hname : fields.lookup name = none) :
    Draft.add? ⟨fields, current⟩ (.header [] name) =
      some ⟨fields ++ [(name, .table .headed [])], [name]⟩ := by
  simp [Draft.add?, Fields.addTable?, Fields.change?, hname, Fields.add?]

theorem add?_entryLine (hname : fields.lookup name = none) {e : String × Scalar}
    (hnew : below.lookup e.1 = none) :
    Draft.add? ⟨fields ++ [(name, .table .headed below)], [name]⟩ (entryLine e) =
      some ⟨fields ++ [(name, .table .headed (below ++ [(e.1, .scalar e.2)]))], [name]⟩ := by
  simp [entryLine, Draft.add?, Fields.addDotted?, Fields.change?, lookup_append_self hname,
    replace_append_self hname, Fields.add?, hnew, Fields.passes]

theorem foldlM_entries (hname : fields.lookup name = none) {entries : List (String × Scalar)}
    (hnew : ∀ key ∈ entries.map (·.1), below.lookup key = none)
    (hdistinct : (entries.map (·.1)).Nodup) :
    (entries.map entryLine).foldlM Draft.add? ⟨fields ++ [(name, .table .headed below)], [name]⟩ =
      some ⟨fields ++ [(name, .table .headed
        (below ++ entries.map fun (key, v) => (key, .scalar v)))], [name]⟩ := by
  induction entries generalizing below with
  | nil => simp
  | cons e entries ih =>
    rw [List.map_cons, List.forall_mem_cons] at hnew
    rw [List.map_cons, List.nodup_cons] at hdistinct
    have hnext := lookup_append_of_notMem hnew.2 hdistinct.1 (.scalar e.2)
    rw [List.map_cons, List.foldlM_cons, add?_entryLine hname hnew.1]
    simpa using ih hnext hdistinct.2

theorem foldlM_lines (current : List String) {s : Section} (hs : s.WellFormed)
    (hname : fields.lookup s.name = none) :
    s.lines.foldlM Draft.add? ⟨fields, current⟩ =
      some ⟨fields ++ [(s.name, s.table)], [s.name]⟩ := by
  rw [Section.lines, List.foldlM_cons, add?_header hname]
  exact foldlM_entries hname (fun _ _ => rfl) hs.distinct

theorem foldlM_sections (fields : Fields) (current : List String) {sections : List Section}
    (h : ∀ s ∈ sections, s.WellFormed)
    (hnew : ∀ name ∈ sections.map Section.name, fields.lookup name = none)
    (hdistinct : (sections.map Section.name).Nodup) :
    ∃ last, ([Line.blank].intercalate (sections.map Section.lines)).foldlM Draft.add?
      ⟨fields, current⟩ = some ⟨fields ++ Section.toFields sections, last⟩ := by
  induction sections generalizing fields current with
  | nil => exact ⟨current, by simp⟩
  | cons s sections ih =>
    rw [List.forall_mem_cons] at h
    rw [List.map_cons, List.forall_mem_cons] at hnew
    rw [List.map_cons, List.nodup_cons] at hdistinct
    have hfirst := foldlM_lines current h.1 hnew.1
    have hnext := lookup_append_of_notMem hnew.2 hdistinct.1 s.table
    obtain ⟨last, hrest⟩ := ih _ [s.name] h.2 hnext hdistinct.2
    cases sections with
    | nil => exact ⟨_, by simpa using hfirst⟩
    | cons t sections =>
      refine ⟨last, ?_⟩
      rw [List.map_cons, List.map_cons, List.intercalate_cons_cons, List.append_assoc,
        List.foldlM_append, hfirst]
      simpa [Draft.add?] using hrest

end Drafts

/-- A document begins with a header, not with a mark of the byte order. -/
theorem render_head {sections : List Section} {c : Char} {rest : List Char}
    (h : (render sections).toList = c :: rest) : c = '[' := by
  rw [render, String.toList_intercalate, List.map_map] at h
  cases sections with
  | nil => cases h
  | cons s sections =>
    cases sections <;>
      · simp [Section.toList_render] at h
        exact h.1.symm

/-- A document holds the well-formed sections that it was written from. -/
theorem parse?_render {sections : List Section} (h : ∀ s ∈ sections, s.WellFormed)
    (hdistinct : (sections.map Section.name).Nodup) :
    parse? (render sections) = some (Section.toFields sections) := by
  have hread := readsAs_render h _ (Nat.lt_succ_self _)
  obtain ⟨last, hdraft⟩ := foldlM_sections [] [] h (fun _ _ => rfl) hdistinct
  unfold parse?
  split
  · next hmark => exact absurd (render_head hmark) (by decide)
  · simp [hread, hdraft]

end StableSupply.Toml
