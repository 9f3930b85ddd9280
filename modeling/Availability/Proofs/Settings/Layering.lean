import Availability.Proofs.Settings.Form
import Availability.Proofs.Settings.Layers

/-!
# Which layer a setting is of

Layers merge setting by setting. Each setting is what the highest layer that says something of it
says, converted to what the setting takes: its variable before the file, the file before the
defaults. What a lower layer says of it does not matter, be it right or wrong, and neither does
what any layer says of other settings.

* `at?_winner`: what the layers come to at the place of a setting.
* `ofItem_eq_ok_iff`: which settings are read of the layers.
* `load_layered`: what loading comes to, with plain files and environments.
-/

namespace Availability.Settings

/-- What a file holds, if it can be read. A file that is not there holds nothing. -/
def readFile? : Option Bytes → Option (List (String × Toml.Value))
  | none => some []
  | some bytes => (Utf8.decode? bytes).bind Toml.read

theorem fileLayer_of_readFile? {file : Option Bytes} {members : List (String × Toml.Value)}
    (h : readFile? file = some members) : fileLayer file = .ok (membersOfToml members) := by
  cases file with
  | none =>
    cases h
    rfl
  | some bytes =>
    obtain ⟨text, htext, hread⟩ := Option.bind_eq_some_iff.1 h
    simp only [fileLayer, htext, hread]

/-- What holds of a setting by default. -/
def defaultItem (sect key : String) : Item :=
  Item.ofDefault (Config.default.toTable.value sect key)

/-- What the highest layer that says something of a setting says of it. -/
def winner (members : List (String × Toml.Value)) (environment : List (String × String))
    (sect key : String) : Item :=
  ((variableItem? environment sect key).or (fileItem? members sect key)).getD
    (defaultItem sect key)

theorem at?_defaultLayer {s : Section} (hs : s ∈ form) {f : Field} (hf : f ∈ s.fields) :
    (Item.table defaultLayer none).at? s.name f.name = some (defaultItem s.name f.name) := by
  simp only [form, List.mem_cons, List.not_mem_nil, or_false] at hs
  rcases hs with rfl | rfl | rfl | rfl | rfl <;>
    simp only [List.mem_cons, List.not_mem_nil, or_false] at hf
  · rcases hf with rfl | rfl | rfl | rfl <;> rfl
  · rcases hf with rfl | rfl | rfl | rfl <;> rfl
  · rcases hf with rfl | rfl <;> rfl
  · rcases hf with rfl | rfl | rfl | rfl | rfl <;> rfl
  · rcases hf with rfl | rfl | rfl | rfl <;> rfl

section

variable {members : List (String × Toml.Value)} {environment : List (String × String)}

/-- **At the place of each setting stands what wins.** -/
theorem at?_winner (hfile : PlainFile members) (henvironment : PlainEnvironment environment)
    {s : Section} (hs : s ∈ form) {f : Field} (hf : f ∈ s.fields) :
    (layered (membersOfToml members) environment).at? s.name f.name =
      some (winner members environment s.name f.name) := by
  rw [layered, at?_environmentLayer henvironment (areParted_of_mem s hs f hf),
    at?_fileLayer hfile hs, at?_defaultLayer hs hf, winner]
  cases variableItem? environment s.name f.name with
  | some i => rfl
  | none => cases fileItem? members s.name f.name <;> rfl

/-- Settings each of which is what wins, converted to what the setting takes. -/
def Winning (members : List (String × Toml.Value)) (environment : List (String × String))
    (c : Config) : Prop :=
  ∀ s ∈ form, ∀ f ∈ s.fields,
    (winner members environment s.name f.name).convertField f =
      .ok (c.toTable.value s.name f.name)

/-- The fault of layers that cannot be read: something that wins does not convert. -/
def Losing (members : List (String × Toml.Value)) (environment : List (String × String))
    (fault : Fault) : Prop :=
  ∃ s ∈ form, ∃ f ∈ s.fields, ∃ reason,
    (winner members environment s.name f.name).convertField f = .error reason ∧
      fault = (reason.within f.name).within s.name

theorem winning_of_ofItem (hfile : PlainFile members)
    (henvironment : PlainEnvironment environment) {c : Config}
    (h : Config.ofItem (layered (membersOfToml members) environment) = .ok c) :
    Winning members environment c := by
  intro s hs f hf
  exact (toTable_of_ofItem h).2 s hs f hf _ (at?_winner hfile henvironment hs hf)

theorem losing_of_ofItem (hfile : PlainFile members)
    (henvironment : PlainEnvironment environment) {fault : Fault}
    (h : Config.ofItem (layered (membersOfToml members) environment) = .error fault) :
    Losing members environment fault := by
  have hthere : ∀ s ∈ form, ∀ f ∈ s.fields,
      ((layered (membersOfToml members) environment).at? s.name f.name).isSome = true := by
    intro s hs f hf
    rw [at?_winner hfile henvironment hs hf]
    rfl
  obtain ⟨s, hs, f, hf, i, reason, hi, hreason, hfault⟩ := fault_of_ofItem h hthere
  rw [at?_winner hfile henvironment hs hf] at hi
  cases hi
  exact ⟨s, hs, f, hf, reason, hreason, hfault⟩

theorem Winning.unique {c c' : Config} (h : Winning members environment c)
    (h' : Winning members environment c') : c = c' := by
  apply Config.eq_of_value
  intro s hs f hf
  have heq := (h s hs f hf).symm.trans (h' s hs f hf)
  injection heq

/-- **Which settings are read of the layers**: those that win, all of them. -/
theorem ofItem_eq_ok_iff (hfile : PlainFile members)
    (henvironment : PlainEnvironment environment) (c : Config) :
    Config.ofItem (layered (membersOfToml members) environment) = .ok c ↔
      Winning members environment c := by
  refine ⟨winning_of_ofItem hfile henvironment, fun hwinning => ?_⟩
  cases h : Config.ofItem (layered (membersOfToml members) environment) with
  | ok c' => rw [(winning_of_ofItem hfile henvironment h).unique hwinning]
  | error fault =>
    obtain ⟨s, hs, f, hf, reason, hreason, -⟩ := losing_of_ofItem hfile henvironment h
    rw [hwinning s hs f hf] at hreason
    cases hreason

/-- What loading comes to, of a file and an environment that say this. -/
structure Layered (members : List (String × Toml.Value)) (environment : List (String × String))
    (result : Except Error Config) : Prop where
  loaded_iff : ∀ c, result = .ok c ↔ Winning members environment c ∧ c.validate = none
  failed : ∀ e, result = .error e →
    (∃ fault, Losing members environment fault ∧ e = .config fault) ∨
      ∃ c fault, Winning members environment c ∧ c.validate = some fault ∧ e = .validation fault
  valid : ∀ c, result = .ok c → c.sources.url ≠ "" ∧ c.pipeline.batchSize ≠ 0 ∧
    c.pipeline.channelBufferSize ≠ 0 ∧ c.pipeline.tickIntervalMs ≠ 0 ∧
    c.pipeline.shutdownTimeoutSecs ≠ 0
  /-- A setting is the same wherever the same wins for it, whatever is said of the others. -/
  apart : ∀ file' members' environment' c c', readFile? file' = some members' →
    PlainFile members' → PlainEnvironment environment' → result = .ok c →
    Config.load file' environment' = .ok c' → ∀ s ∈ form, ∀ f ∈ s.fields,
      winner members environment s.name f.name = winner members' environment' s.name f.name →
        c.toTable.value s.name f.name = c'.toTable.value s.name f.name

variable {file : Option Bytes}

theorem winning_of_load (hread : readFile? file = some members) (hfile : PlainFile members)
    (henvironment : PlainEnvironment environment) {c : Config}
    (h : Config.load file environment = .ok c) :
    Winning members environment c ∧ c.validate = none := by
  obtain ⟨layer, hlayer, hitem, hvalid⟩ := load_eq_ok h
  rw [fileLayer_of_readFile? hread] at hlayer
  cases hlayer
  exact ⟨winning_of_ofItem hfile henvironment hitem, hvalid⟩

theorem load_of_winning (hread : readFile? file = some members) (hfile : PlainFile members)
    (henvironment : PlainEnvironment environment) {c : Config}
    (h : Winning members environment c) (hvalid : c.validate = none) :
    Config.load file environment = .ok c := by
  have hitem := (ofItem_eq_ok_iff hfile henvironment c).2 h
  simp only [Config.load, fileLayer_of_readFile? hread, hitem, hvalid]

theorem fault_of_load (hread : readFile? file = some members) (hfile : PlainFile members)
    (henvironment : PlainEnvironment environment) {e : Error}
    (h : Config.load file environment = .error e) :
    (∃ fault, Losing members environment fault ∧ e = .config fault) ∨
      ∃ c fault, Winning members environment c ∧ c.validate = some fault ∧
        e = .validation fault := by
  unfold Config.load at h
  rw [fileLayer_of_readFile? hread] at h
  simp only at h
  split at h
  · next fault hitem =>
    cases h
    exact .inl ⟨fault, losing_of_ofItem hfile henvironment hitem, rfl⟩
  · next c hitem =>
    split at h
    · next fault hfault =>
      cases h
      exact .inr ⟨c, fault, winning_of_ofItem hfile henvironment hitem, hfault, rfl⟩
    · cases h

/-- **Layers merge setting by setting.** Of a file with bare names and a table of scalars for each
section, and of variables of single settings, loading makes what wins for each setting, and it
fails only if something that wins does not convert or all that wins is not valid together. -/
theorem load_layered (hread : readFile? file = some members) (hfile : PlainFile members)
    (henvironment : PlainEnvironment environment) :
    Layered members environment (Config.load file environment) := by
  refine ⟨fun c => ⟨winning_of_load hread hfile henvironment, fun ⟨hwinning, hvalid⟩ =>
    load_of_winning hread hfile henvironment hwinning hvalid⟩,
    fun e => fault_of_load hread hfile henvironment, fun c h => ?_, ?_⟩
  · obtain ⟨-, hvalid⟩ := winning_of_load hread hfile henvironment h
    exact (Config.validate_eq_none_iff c).1 hvalid
  · intro file' members' environment' c c' hread' hfile' henvironment' h h' s hs f hf hwinner
    have hvalue := (winning_of_load hread hfile henvironment h).1 s hs f hf
    have hvalue' := (winning_of_load hread' hfile' henvironment' h').1 s hs f hf
    rw [hwinner, hvalue'] at hvalue
    injection hvalue with heq
    exact heq.symm

end

/-- The file gives the size of a batch as a word, which a variable hides, and the period of the
ticker as a fraction, which nothing hides. -/
theorem load_layered_hidden : ∃ members c,
    readFile? (some (Utf8.encode
      "[Pipeline]\nbatch_size = \"many\"\ntick_interval_ms = 40.4\n[other]\nurl = []\n")) =
        some members ∧
      PlainFile members ∧
      PlainEnvironment [("PATH", "/bin"), ("Statuser__Pipeline__BATCH_SIZE", "7")] ∧
      Winning members [("PATH", "/bin"), ("Statuser__Pipeline__BATCH_SIZE", "7")] c ∧
      c.pipeline.batchSize = 7 ∧ c.pipeline.tickIntervalMs = 40 := by
  have hreads : (readFile? (some (Utf8.encode
      "[Pipeline]\nbatch_size = \"many\"\ntick_interval_ms = 40.4\n[other]\nurl = []\n"))).map
        (fun members => decide (PlainFile members)) = some true := by
    decide +kernel
  have hloads : (Config.load (some (Utf8.encode
      "[Pipeline]\nbatch_size = \"many\"\ntick_interval_ms = 40.4\n[other]\nurl = []\n"))
        [("PATH", "/bin"), ("Statuser__Pipeline__BATCH_SIZE", "7")]).toOption.map
          (fun c => (c.pipeline.batchSize, c.pipeline.tickIntervalMs)) = some (7, 40) := by
    decide +kernel
  have henvironment :
      PlainEnvironment [("PATH", "/bin"), ("Statuser__Pipeline__BATCH_SIZE", "7")] := by
    refine ⟨fun v hv hpath => ?_, by decide +kernel⟩
    simp only [List.mem_cons, List.not_mem_nil, or_false] at hv
    rcases hv with rfl | rfl
    · exact absurd hpath (by decide +kernel)
    · exact ⟨"pipeline", "batch_size", by decide +kernel, by decide +kernel⟩
  obtain ⟨members, hread, hplain⟩ := Option.map_eq_some_iff.1 hreads
  obtain ⟨c, hc, hnumbers⟩ := Option.map_eq_some_iff.1 hloads
  have hfile := of_decide_eq_true hplain
  have hlayered := load_layered hread hfile henvironment
  obtain ⟨hwinning, -⟩ := (hlayered.loaded_iff c).1 (eq_ok_of_toOption hc)
  injection hnumbers with hbatch htick
  exact ⟨members, c, hread, hfile, henvironment, hwinning, hbatch, htick⟩

end Availability.Settings
