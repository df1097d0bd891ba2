import StableSupply.Node.Run
import StableSupply.Proofs.Act
import StableSupply.Proofs.Toml.Documents

/-! # Saved configurations

A configuration whose numbers TOML has is the one that its sections hold (`Config.exists_sections`),
whatever its texts are and whether or not its optional fields are there. So a configuration that was
saved is read back from its file, and one that cannot be written leaves the machine as it was
(`Run.save_reads`). -/

namespace StableSupply

/-! ## Configurations as sections -/

namespace Config

/-- All numbers of a configuration. -/
def numbers (c : Config) : List UInt64 :=
  c.chainId :: c.genesis.timestamp.toList ++
    [c.updates.intervalSecs, c.updates.oracleTimeoutSecs, c.updates.eventCapacity,
      c.updates.deadbandBps, c.updates.maxStepBps]

/-- TOML has an integer for each of the numbers. -/
def Fits (c : Config) : Prop := ∀ n ∈ c.numbers, n.toNat ≤ 2 ^ 63 - 1

instance (c : Config) : Decidable c.Fits :=
  List.decidableBAll (fun n : UInt64 => n.toNat ≤ 2 ^ 63 - 1) c.numbers

theorem integer?_of_le {n : UInt64} (h : n.toNat ≤ 2 ^ 63 - 1) :
    integer? n = some (.integer n.toNat) := if_pos (by omega)

theorem le_of_integer? {n : UInt64} {v : Toml.Scalar} (h : integer? n = some v) :
    n.toNat ≤ 2 ^ 63 - 1 := by
  unfold integer? at h
  split at h
  · omega
  · cases h

theorem number?_toNat (n : UInt64) : number? (.scalar (.integer n.toNat)) = some n := by
  have hlt : (0 : Int) ≤ n.toNat ∧ (n.toNat : Int) < 2 ^ 64 := by
    have := n.toNat_lt
    omega
  rw [number?, if_pos hlt, Int.toNat_natCast, UInt64.ofNat_toNat]

/-! ### Sections -/

/-- An entry for a number. -/
def numberEntry (key : String) (n : UInt64) : String × Toml.Scalar := (key, .integer n.toNat)

def textEntry (key text : String) : String × Toml.Scalar := (key, .text text)

def chainSection (chainId : UInt64) : Toml.Section := ⟨"chain", [numberEntry "chain_id" chainId]⟩

def genesisSection (g : GenesisSection) : Toml.Section where
  name := "genesis"
  entries := [textEntry "founder" g.founder, textEntry "reserve" g.reserve,
    textEntry "treasury" g.treasury] ++ g.timestamp.toList.map (numberEntry "timestamp")

def updateSection (u : UpdateSection) : Toml.Section where
  name := "ultrastable"
  entries := [numberEntry "update_interval_secs" u.intervalSecs,
    numberEntry "oracle_timeout_secs" u.oracleTimeoutSecs] ++
    u.treasury.toList.map (textEntry "treasury") ++
    [numberEntry "event_capacity" u.eventCapacity, numberEntry "deadband_bps" u.deadbandBps,
      numberEntry "max_step_bps" u.maxStepBps]

/-- The sections of a configuration, with all numbers in place. -/
def sections (c : Config) : List Toml.Section :=
  [chainSection c.chainId, genesisSection c.genesis, updateSection c.updates]

theorem optional?_text (key : String) (text : Option String) :
    optional? key (fun s => some (.text s)) text = some (text.toList.map (textEntry key)) := by
  cases text <;> rfl

theorem optional?_number (key : String) {n : Option UInt64}
    (h : ∀ k ∈ n.toList, k.toNat ≤ 2 ^ 63 - 1) :
    optional? key integer? n = some (n.toList.map (numberEntry key)) := by
  cases n with
  | none => rfl
  | some n => simp [optional?, integer?_of_le (h n (List.mem_singleton_self n)), numberEntry]

theorem toSections?_of_fits {c : Config} (h : c.Fits) : c.toSections? = some c.sections := by
  simp only [Fits, numbers, List.cons_append, List.forall_mem_cons, List.forall_mem_append] at h
  obtain ⟨hchain, htimestamp, hinterval, htimeout, hcapacity, hdeadband, hstep, -⟩ := h
  simp only [toSections?, integer?_of_le hchain, optional?_number _ htimestamp,
    integer?_of_le hinterval, integer?_of_le htimeout, optional?_text, integer?_of_le hcapacity,
    integer?_of_le hdeadband, integer?_of_le hstep]
  rfl

theorem fits_of_toSections? {c : Config} {sections : List Toml.Section}
    (h : c.toSections? = some sections) : c.Fits := by
  simp only [toSections?, Option.bind_eq_bind, Option.bind_eq_some_iff] at h
  obtain ⟨_, hchain, _, htimestamp, _, hinterval, _, htimeout, _, -, _, hcapacity, _, hdeadband, _,
    hstep, -⟩ := h
  have htimestamp' : ∀ k ∈ c.genesis.timestamp.toList, k.toNat ≤ 2 ^ 63 - 1 := by
    intro k hk
    rw [Option.mem_toList] at hk
    rw [hk, optional?, Option.map_eq_some_iff] at htimestamp
    obtain ⟨_, hk', -⟩ := htimestamp
    exact le_of_integer? hk'
  simp only [Fits, numbers, List.cons_append, List.forall_mem_cons, List.forall_mem_append]
  exact ⟨le_of_integer? hchain, htimestamp', le_of_integer? hinterval, le_of_integer? htimeout,
    le_of_integer? hcapacity, le_of_integer? hdeadband, le_of_integer? hstep, nofun⟩

/-! ### Well-formed sections -/

theorem isProper_number {n : UInt64} (h : n.toNat ≤ 2 ^ 63 - 1) (key : String) :
    (numberEntry key n).2.IsProper := .integer (by omega) (by omega)

theorem isProper_text (key text : String) : (textEntry key text).2.IsProper := .text text

theorem wellFormed_of_sublist (names : List String) {s : Toml.Section} (hname : Toml.IsBare s.name)
    (hkeys : s.keys.Sublist names) (hbare : ∀ key ∈ names, Toml.IsBare key)
    (hdistinct : names.Nodup) (hvalues : ∀ e ∈ s.entries, e.2.IsProper) : s.WellFormed where
  name := hname
  keys key hkey := hbare key (hkeys.subset hkey)
  distinct := hdistinct.sublist hkeys
  values := hvalues

theorem wellFormed_chain {n : UInt64} (h : n.toNat ≤ 2 ^ 63 - 1) : (chainSection n).WellFormed := by
  refine wellFormed_of_sublist ["chain_id"] ?_ (.refl _) (by decide) (by decide) ?_
  · show Toml.IsBare "chain"
    decide
  · exact List.forall_mem_singleton.2 (isProper_number h _)

theorem wellFormed_genesis {g : GenesisSection}
    (h : ∀ k ∈ g.timestamp.toList, k.toNat ≤ 2 ^ 63 - 1) : (genesisSection g).WellFormed := by
  refine wellFormed_of_sublist ["founder", "reserve", "treasury", "timestamp"] ?_ ?_
    (by decide) (by decide) ?_
  · show Toml.IsBare "genesis"
    decide
  · cases ht : g.timestamp <;> simp [Toml.Section.keys, genesisSection, ht, textEntry, numberEntry]
  · simp only [genesisSection, List.forall_mem_append, List.forall_mem_cons, List.forall_mem_map]
    exact ⟨⟨isProper_text .., isProper_text .., isProper_text .., nofun⟩,
      fun k hk => isProper_number (h k hk) _⟩

theorem wellFormed_updates {u : UpdateSection} (hinterval : u.intervalSecs.toNat ≤ 2 ^ 63 - 1)
    (htimeout : u.oracleTimeoutSecs.toNat ≤ 2 ^ 63 - 1)
    (hcapacity : u.eventCapacity.toNat ≤ 2 ^ 63 - 1) (hdeadband : u.deadbandBps.toNat ≤ 2 ^ 63 - 1)
    (hstep : u.maxStepBps.toNat ≤ 2 ^ 63 - 1) : (updateSection u).WellFormed := by
  refine wellFormed_of_sublist ["update_interval_secs", "oracle_timeout_secs", "treasury",
    "event_capacity", "deadband_bps", "max_step_bps"] ?_ ?_ (by decide) (by decide) ?_
  · show Toml.IsBare "ultrastable"
    decide
  · cases ht : u.treasury <;> simp [Toml.Section.keys, updateSection, ht, textEntry, numberEntry]
  · simp only [updateSection, List.forall_mem_append, List.forall_mem_cons, List.forall_mem_map]
    exact ⟨⟨⟨isProper_number hinterval _, isProper_number htimeout _, nofun⟩,
      fun _ _ => isProper_text ..⟩, isProper_number hcapacity _, isProper_number hdeadband _,
      isProper_number hstep _, nofun⟩

theorem wellFormed_sections {c : Config} (h : c.Fits) : ∀ s ∈ c.sections, s.WellFormed := by
  simp only [Fits, numbers, List.cons_append, List.forall_mem_cons, List.forall_mem_append] at h
  obtain ⟨hchain, htimestamp, hinterval, htimeout, hcapacity, hdeadband, hstep, -⟩ := h
  simp only [sections, List.forall_mem_cons]
  exact ⟨wellFormed_chain hchain, wellFormed_genesis htimestamp,
    wellFormed_updates hinterval htimeout hcapacity hdeadband hstep, nofun⟩

/-! ### Reading sections -/

section Records

variable {v v₁ v₂ v₃ v₄ v₅ : Toml.Value} {n n₁ n₂ n₃ n₄ n₅ : UInt64}

theorem chainId?_of_number (h : number? v = some n) :
    chainId? (.table .headed [("chain_id", v)]) = some n := by
  simp [chainId?, record?, h]

theorem genesis?_of_number (h : number? v = some n) (founder reserve treasury : String) :
    genesis? (.table .headed [("founder", .scalar (.text founder)),
      ("reserve", .scalar (.text reserve)), ("treasury", .scalar (.text treasury)),
      ("timestamp", v)]) = some ⟨founder, reserve, treasury, some n⟩ := by
  simp [genesis?, record?, List.lookup_cons, text?, orNone, h]

theorem orDefault_lookup {fields : Toml.Fields} {key : String} (hv : fields.lookup key = some v)
    (h : number? v = some n) (default : UInt64) :
    orDefault number? default (fields.lookup key) = some n := by
  rw [hv]
  exact h

theorem updates?_of_number (h₁ : number? v₁ = some n₁) (h₂ : number? v₂ = some n₂)
    (h₃ : number? v₃ = some n₃) (h₄ : number? v₄ = some n₄) (h₅ : number? v₅ = some n₅)
    (treasury : Option String) :
    updates? (.table .headed ([("update_interval_secs", v₁), ("oracle_timeout_secs", v₂)] ++
      treasury.toList.map (fun text => ("treasury", .scalar (.text text))) ++
      [("event_capacity", v₃), ("deadband_bps", v₄), ("max_step_bps", v₅)])) =
        some ⟨n₁, n₂, treasury, n₃, n₄, n₅⟩ := by
  refine Option.bind_eq_some_iff.2 ⟨n₁, orDefault_lookup ?_ h₁ _, ?_⟩
  · simp
  refine Option.bind_eq_some_iff.2 ⟨n₂, orDefault_lookup ?_ h₂ _, ?_⟩
  · simp [List.lookup_cons]
  refine Option.bind_eq_some_iff.2 ⟨treasury, ?_, ?_⟩
  · cases treasury <;> simp [List.lookup_cons, orNone, text?]
  refine Option.bind_eq_some_iff.2 ⟨n₃, orDefault_lookup ?_ h₃ _, ?_⟩
  · cases treasury <;> simp [List.lookup_cons]
  refine Option.bind_eq_some_iff.2 ⟨n₄, orDefault_lookup ?_ h₄ _, ?_⟩
  · cases treasury <;> simp [List.lookup_cons]
  refine Option.bind_eq_some_iff.2 ⟨n₅, orDefault_lookup ?_ h₅ _, rfl⟩
  cases treasury <;> simp [List.lookup_cons]

theorem ofFields?_of_sections {g : GenesisSection} {u : UpdateSection} (h₁ : chainId? v₁ = some n)
    (h₂ : genesis? v₂ = some g) (h₃ : updates? v₃ = some u) :
    ofFields? [("chain", v₁), ("genesis", v₂), ("ultrastable", v₃)] = some ⟨n, g, u⟩ := by
  simp [ofFields?, List.lookup_cons, orDefault, h₁, h₂, h₃]

end Records

theorem chainId?_table (n : UInt64) : chainId? (chainSection n).table = some n :=
  chainId?_of_number (number?_toNat n)

theorem genesis?_table (g : GenesisSection) : genesis? (genesisSection g).table = some g := by
  obtain ⟨founder, reserve, treasury, _ | timestamp⟩ := g
  · rfl
  · exact genesis?_of_number (number?_toNat timestamp) founder reserve treasury

theorem updates?_table (u : UpdateSection) : updates? (updateSection u).table = some u := by
  refine (congrArg updates? ?_).trans (updates?_of_number (number?_toNat u.intervalSecs)
    (number?_toNat u.oracleTimeoutSecs) (number?_toNat u.eventCapacity)
    (number?_toNat u.deadbandBps) (number?_toNat u.maxStepBps) u.treasury)
  simp [Toml.Section.table, updateSection, numberEntry, textEntry]

/-- What the sections hold is the configuration. -/
theorem ofFields?_sections (c : Config) :
    ofFields? (Toml.Section.toFields c.sections) = some c :=
  ofFields?_of_sections (chainId?_table c.chainId) (genesis?_table c.genesis)
    (updates?_table c.updates)

/-- What is written for a configuration is read as that configuration. -/
theorem parse?_render? {c : Config} {document : String} (h : c.render? = some document) :
    parse? document = some c := by
  obtain ⟨sections, hsections, rfl⟩ := Option.map_eq_some_iff.1 h
  have hfits := fits_of_toSections? hsections
  rw [toSections?_of_fits hfits] at hsections
  cases hsections
  have hdistinct : (c.sections.map Toml.Section.name).Nodup := by
    show ["chain", "genesis", "ultrastable"].Nodup
    decide
  rw [parse?, Toml.parse?_render (wellFormed_sections hfits) hdistinct, Option.bind_some,
    ofFields?_sections]

/-- A configuration can be written if its numbers fit. -/
theorem render?_isSome {c : Config} : c.render?.isSome ↔ c.Fits := by
  rw [render?, Option.isSome_map, Option.isSome_iff_exists]
  exact ⟨fun ⟨_, h⟩ => fits_of_toSections? h, fun h => ⟨_, toSections?_of_fits h⟩⟩

end Config

/-! ## Files -/

namespace Files

/-- A text can be written to a path: directories lead to it or can be made, and none is there. -/
def Takes (f : Files) (p : Path) : Prop :=
  f.text? p.names.dropLast = none ∧ ¬ f.IsBlocked p.names.dropLast ∧
    p.meansDirectory = false ∧ ¬ f.IsDirectory p.names

instance (f : Files) (p : Path) : Decidable (f.Takes p) := inferInstanceAs (Decidable (_ ∧ _))

theorem write_isOk {f : Files} {p : Path} {text : String} :
    (∃ f', f.write p text = .ok f') ↔ f.Takes p := by
  dsimp only [write]
  split_ifs with hparent hblocked hdirectory
  · refine iff_of_false nofun fun h => ?_
    rw [h.1] at hparent
    cases hparent
  · exact iff_of_false nofun fun h => h.2.1 hblocked
  · refine iff_of_false nofun fun h => hdirectory.elim (fun hmeans => ?_) h.2.2.2
    rw [h.2.2.1] at hmeans
    cases hmeans
  · rw [not_or, Bool.not_eq_true] at hdirectory
    exact iff_of_true ⟨_, rfl⟩ ⟨Option.not_isSome_iff_eq_none.1 hparent, hblocked, hdirectory⟩

theorem read_of_write {f f' : Files} {p : Path} {text : String} (h : f.write p text = .ok f') :
    f'.read p = .ok text := by
  obtain ⟨-, -, hplain, -⟩ := write_isOk.1 ⟨f', h⟩
  have htext : f'.text? p.names = some text := by
    dsimp only [write] at h
    split_ifs at h
    cases h
    exact List.lookup_cons_self
  simp [read, htext, hplain]

end Files

/-! ## Saving and loading -/

namespace Run

theorem apply_save (c : Config) (path : String) (machine : Machine) :
    Act.apply (save c path) machine =
      match c.render? with
      | none => (.error .unwritable, machine)
      | some document =>
        match machine.files.write (.ofText path) document with
        | .ok files => (.ok (), { machine with files })
        | .error e => (.error (.file e), machine) := by
  unfold save
  cases c.render? with
  | none => rfl
  | some document =>
    have hask : Act.apply (ask (Host.write path document) : Program (StateM Machine) _) machine =
        (.ok (machine.write path document).1, (machine.write path document).2) := rfl
    dsimp only
    rw [Act.apply_bind, hask]
    cases hwrite : machine.files.write (.ofText path) document with
    | ok files =>
      simp only [Machine.write, hwrite]
      rfl
    | error e =>
      simp only [Machine.write, hwrite]
      rfl

theorem apply_baseConfig {o : Options} {path document : String} {c : Config} {machine : Machine}
    (ho : o.config = some path) (hread : machine.files.read (.ofText path) = .ok document)
    (hc : Config.parse? document = some c) :
    Act.apply (baseConfig o) machine = (.ok c, machine) := by
  unfold baseConfig
  have hask : Act.apply (ask (Host.read path) : Program (StateM Machine) _) machine =
      (.ok (machine.files.read (.ofText path)), machine) := rfl
  rw [ho]
  dsimp only
  rw [Act.apply_bind, hask, hread]
  simp only [hc]
  rfl

/-- A configuration is saved exactly if its numbers fit and the path can be written to. It is then
what the file at that path is loaded as. If its numbers do not fit nothing is written. -/
theorem save_reads (c : Config) (path : String) (machine : Machine) :
    let saved := Act.apply (save c path) machine
    (saved.1 = .ok () ↔ c.Fits ∧ machine.files.Takes (.ofText path)) ∧
    (saved.1 = .ok () → ∀ o : Options, o.config = some path →
      Act.apply (baseConfig o) saved.2 = (.ok c, saved.2)) ∧
    (¬ c.Fits → saved = (.error .unwritable, machine)) := by
  intro saved
  have hsaved : saved = _ := apply_save c path machine
  cases hrender : c.render? with
  | none =>
    have hfits : ¬ c.Fits := by
      rw [← Config.render?_isSome, hrender]
      nofun
    rw [hrender] at hsaved
    rw [hsaved]
    exact ⟨iff_of_false nofun fun h => hfits h.1, nofun, fun _ => rfl⟩
  | some document =>
    have hfits : c.Fits := by
      rw [← Config.render?_isSome, hrender]
      rfl
    rw [hrender] at hsaved
    dsimp only at hsaved
    cases hwrite : machine.files.write (.ofText path) document with
    | ok files =>
      rw [hwrite] at hsaved
      rw [hsaved]
      refine ⟨iff_of_true rfl ⟨hfits, Files.write_isOk.1 ⟨files, hwrite⟩⟩, fun _ o ho => ?_,
        absurd hfits⟩
      exact apply_baseConfig ho (Files.read_of_write hwrite) (Config.parse?_render? hrender)
    | error e =>
      rw [hwrite] at hsaved
      rw [hsaved]
      refine ⟨iff_of_false nofun fun h => ?_, nofun, absurd hfits⟩
      obtain ⟨files, hok⟩ := Files.write_isOk.2 h.2
      rw [hok] at hwrite
      cases hwrite

/-! ### A configuration of awkward texts -/

/-- Quotes of both kinds, three in a row and at the end, line breaks, a tab, a backslash and other
characters that must not stand for themselves; the largest number, and no time of genesis. -/
def awkward : Config where
  chainId := 9223372036854775807
  genesis := ⟨"\"\"\"'''\n\\", "\x01\r\n\t\u007f\"", "", none⟩
  updates := { Config.defaultUpdates with treasury := some "'\"'" }

def bareMachine : Machine := ⟨0, [], ⟨[]⟩, [], [], []⟩

def awkwardOptions : Options := ⟨some "etc/node.toml", none, false, none, none⟩

/-- It is read back as it was, and with the next larger number it is not written. -/
theorem save_reads_awkward :
    let saved := Act.apply (save awkward "etc/node.toml") bareMachine
    saved.1 = .ok () ∧
    Act.apply (baseConfig awkwardOptions) saved.2 = (.ok awkward, saved.2) ∧
    Act.apply (save { awkward with chainId := 9223372036854775808 } "etc/node.toml") bareMachine =
      (.error .unwritable, bareMachine) := by
  have hfits : awkward.Fits := by decide
  have htakes : bareMachine.files.Takes (.ofText "etc/node.toml") := by decide +kernel
  have hsaved := save_reads awkward "etc/node.toml" bareMachine
  have hok := hsaved.1.2 ⟨hfits, htakes⟩
  have htoo : ¬ Config.Fits { awkward with chainId := 9223372036854775808 } := by decide
  exact ⟨hok, hsaved.2.1 hok awkwardOptions rfl, (save_reads _ _ _).2.2 htoo⟩

end Run

end StableSupply
