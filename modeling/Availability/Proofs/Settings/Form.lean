import Availability.Proofs.Settings.Reading

/-!
# The form of settings

Whatever the layers say, settings that are read from them have under each name of the form a value
that it takes: a number has a place in its bits, a word is one of its words. So nothing is lost on
the way from the values to the settings.

* `hasForm_of_convertSections`: what is read of a layer has the form.
* `value_toTable_ofTable`: each setting is the value that was read for it.
* `fault_of_ofItem`: what is at fault if nothing can be read.
* `fits_of_load`: the numbers of settings that load.
-/

namespace Availability.Settings

/-- Whether a value is one of a kind. -/
def Kind.Takes : Kind → Json.Value → Prop
  | .count bits _, v => ∃ n < 1 <<< bits, v = .nat n
  | .text _, v => ∃ s, v = .text s
  | .flag, v => ∃ b, v = .bool b
  | .word _ words, v => ∃ w ∈ words, v = .text w

/-- Whether a setting can have a value. -/
def Field.Takes (f : Field) (v : Json.Value) : Prop :=
  f.optional = true ∧ v = .null ∨ f.kind.Takes v

theorem Field.Takes.kind {f : Field} {v : Json.Value} (h : f.Takes v)
    (hrequired : f.optional = false) : f.kind.Takes v := by
  rcases h with ⟨hoptional, -⟩ | h
  · rw [hrequired] at hoptional
    cases hoptional
  · exact h

/-! ## What is read of an item -/

namespace Item

variable {i : Item} {v : Json.Value}

theorem lt_of_toCountOf {bits n : Nat} (h : i.toCountOf bits = .ok n) : n < 1 <<< bits := by
  obtain ⟨m, -, h⟩ := bind_eq_ok h
  split at h
  · next hlt =>
    cases h
    exact hlt
  · cases h

theorem mem_of_toWord {form w : String} {words : List String} (h : i.toWord form words = .ok w) :
    w ∈ words := by
  unfold toWord at h
  split at h
  · dsimp only at h
    split at h
    · next hfound =>
      cases h
      exact List.mem_of_find?_eq_some hfound
    · cases h
  · dsimp only at h
    split at h
    · next hfound =>
      cases h
      exact List.mem_of_find?_eq_some hfound
    · cases h
  · cases h

/-- An item converts to a value of the kind. -/
theorem takes_of_convert {kind : Kind} (h : i.convert kind = .ok v) : kind.Takes v := by
  cases kind with
  | count bits name =>
    obtain ⟨n, hn, rfl⟩ := map_eq_ok h
    exact ⟨n, lt_of_toCountOf hn, rfl⟩
  | text name =>
    obtain ⟨s, -, rfl⟩ := map_eq_ok h
    exact ⟨s, rfl⟩
  | flag =>
    obtain ⟨b, -, rfl⟩ := map_eq_ok h
    exact ⟨b, rfl⟩
  | word form words =>
    obtain ⟨w, hw, rfl⟩ := map_eq_ok h
    exact ⟨w, mem_of_toWord hw, rfl⟩

theorem takes_of_convertField {f : Field} (h : i.convertField f = .ok v) : f.Takes v := by
  unfold convertField at h
  split at h
  · next hoptional =>
    cases h
    exact .inl ⟨hoptional, rfl⟩
  · exact .inr (takes_of_convert h)

end Item

/-! ## Sections -/

/-- Members that are some settings in order, each with a value that it can have. -/
inductive Filled : List Field → Json.Members → Prop
  | nil : Filled [] []
  | cons {f : Field} {fs : List Field} {v : Json.Value} {vs : Json.Members} :
      f.Takes v → Filled fs vs → Filled (f :: fs) ((f.name, v) :: vs)

theorem Filled.lookup {fs : List Field} {vs : Json.Members} (h : Filled fs vs)
    (hnames : (fs.map Field.name).Nodup) {f : Field} (hf : f ∈ fs) :
    ∃ v, vs.lookup f.name = some v ∧ f.Takes v := by
  induction h with
  | nil => cases hf
  | @cons g fs v vs hv _ ih =>
    obtain ⟨hnew, hnames⟩ := List.nodup_cons.1 hnames
    rcases List.mem_cons.1 hf with rfl | hf
    · exact ⟨v, lookup_cons_same _ _ _, hv⟩
    · have hne := name_ne hnew hf
      rw [lookup_cons_other hne]
      exact ih hnames hf

theorem lookup_convertMembers_none {ms : Items} {fs : List Field} {vs : Json.Members}
    (h : convertMembers ms fs = .ok vs) {name : String} (hnone : ms.lookup name = none) :
    vs.lookup name = none := by
  induction fs generalizing vs with
  | nil =>
    cases h
    rfl
  | cons g fs ih =>
    rw [convertMembers] at h
    split at h
    · exact ih h
    · next hi =>
      obtain ⟨w, -, h⟩ := bind_eq_ok h
      obtain ⟨rest, hrest, h⟩ := bind_eq_ok h
      cases h
      have hne : name ≠ g.name := by
        rintro rfl
        rw [hnone] at hi
        cases hi
      rw [lookup_cons_other hne]
      exact ih hrest

theorem takes_of_convertMembers {ms : Items} {fs : List Field} {vs : Json.Members}
    (h : convertMembers ms fs = .ok vs) (hnames : (fs.map Field.name).Nodup) {f : Field}
    (hf : f ∈ fs) {v : Json.Value} (hv : vs.lookup f.name = some v) : f.Takes v := by
  cases hi : ms.lookup f.name with
  | none =>
    rw [lookup_convertMembers_none h hi] at hv
    cases hv
  | some i =>
    obtain ⟨w, hw, hlookup⟩ := convertMembers_lookup h hnames hf hi
    rw [hlookup] at hv
    cases hv
    exact Item.takes_of_convertField hw

theorem filled_of_fillMissing {us vs : Json.Members} {fs : List Field}
    (h : fillMissing us fs = .ok vs)
    (htakes : ∀ f ∈ fs, ∀ v, us.lookup f.name = some v → f.Takes v) : Filled fs vs := by
  induction fs generalizing vs with
  | nil =>
    cases h
    exact .nil
  | cons f fs ih =>
    obtain ⟨v, rest, hrest, rfl, hv⟩ := fillMissing_cons h
    have hrests := ih hrest fun g hg => htakes g (List.mem_cons_of_mem _ hg)
    rcases hv with hv | ⟨-, hoptional, rfl⟩
    · exact .cons (htakes f List.mem_cons_self v hv) hrests
    · exact .cons (.inl ⟨hoptional, rfl⟩) hrests

theorem filled_of_convertItems {listName : String} {index : Nat} {fs : List Field}
    {is : List Item} {vs : Json.Members} (h : convertItems listName index fs is = .ok vs) :
    Filled fs vs := by
  induction fs generalizing index is vs with
  | nil =>
    rw [convertItems] at h
    cases h
    exact .nil
  | cons f fs ih =>
    cases is with
    | nil => cases h
    | cons i is =>
      rw [convertItems] at h
      obtain ⟨v, hv, h⟩ := bind_eq_ok h
      obtain ⟨rest, hrest, h⟩ := bind_eq_ok h
      cases h
      exact .cons (Item.takes_of_convertField (mapError_eq_ok hv)) (ih hrest)

theorem filled_of_convertSection {s : Section} {i : Item} {vs : Json.Members}
    (h : convertSection s i = .ok vs) (hnames : (s.fields.map Field.name).Nodup) :
    Filled s.fields vs := by
  unfold convertSection at h
  split at h
  · obtain ⟨us, hus, h⟩ := bind_eq_ok h
    exact filled_of_fillMissing h fun f hf v hv => takes_of_convertMembers hus hnames hf hv
  · exact filled_of_convertItems h
  · cases h

/-! ## All settings -/

/-- Whether values are such as the form asks for. -/
def Table.HasForm (t : Table) : Prop :=
  ∀ s ∈ form, ∀ f ∈ s.fields, f.Takes (t.value s.name f.name)

theorem hasForm_of_convertSections {ms : Items} {t : Table}
    (h : convertSections ms form = .ok t) : t.HasForm := by
  intro s hs f hf
  obtain ⟨i, vs, -, hvs, hlookup⟩ := convertSections_lookup h nodup_names.1 hs
  have hnames := nodup_names.2 s hs
  obtain ⟨v, hv, htakes⟩ := (filled_of_convertSection hvs hnames).lookup hnames hf
  rw [Table.value, hlookup, Option.getD_some, hv, Option.getD_some]
  exact htakes

namespace Table

variable {t : Table} {sect key name : String}

theorem nat_count {bits : Nat} (h : (Kind.count bits name).Takes (t.value sect key)) :
    .nat (t.count sect key) = t.value sect key ∧ t.count sect key < 1 <<< bits := by
  obtain ⟨n, hn, hv⟩ := h
  have hcount : t.count sect key = n := by
    rw [count, hv]
    rfl
  rw [hcount, hv]
  exact ⟨rfl, hn⟩

theorem text_text (h : (Kind.text name).Takes (t.value sect key)) :
    .text (t.text sect key) = t.value sect key := by
  obtain ⟨s, hv⟩ := h
  rw [text, text?, hv]
  rfl

theorem optionalText_text? (h : Field.Takes ⟨key, .text name, true⟩ (t.value sect key)) :
    Config.optionalText (t.text? sect key) = t.value sect key := by
  rcases h with ⟨-, hv⟩ | ⟨s, hv⟩
  · rw [text?, hv]
    rfl
  · rw [text?, hv]
    rfl

theorem bool_flag (h : Kind.flag.Takes (t.value sect key)) :
    .bool (t.flag sect key) = t.value sect key := by
  obtain ⟨b, hv⟩ := h
  rw [flag, hv]

theorem text_word (h : (Kind.word name ["json", "pretty"]).Takes (t.value sect key)) :
    .text (LogFormat.name (if t.text sect key = "json" then .json else .pretty)) =
      t.value sect key := by
  obtain ⟨w, hw, hv⟩ := h
  have htext : t.text sect key = w := by
    rw [text, text?, hv]
    rfl
  rw [htext, hv]
  rcases List.mem_cons.1 hw with rfl | hw
  · rfl
  · obtain rfl := List.mem_singleton.1 hw
    rfl

end Table

/-- **Each setting is the value that was read for it.** -/
theorem value_toTable_ofTable {t : Table} (h : t.HasForm) {s : Section} (hs : s ∈ form)
    {f : Field} (hf : f ∈ s.fields) :
    (Config.ofTable t).toTable.value s.name f.name = t.value s.name f.name := by
  have htakes := h s hs f hf
  simp only [form, List.mem_cons, List.not_mem_nil, or_false] at hs
  rcases hs with rfl | rfl | rfl | rfl | rfl <;>
    simp only [List.mem_cons, List.not_mem_nil, or_false] at hf
  · rcases hf with rfl | rfl | rfl | rfl <;> exact (Table.nat_count (htakes.kind rfl)).1
  · rcases hf with rfl | rfl | rfl | rfl
    · exact Table.text_text (htakes.kind rfl)
    all_goals exact (Table.nat_count (htakes.kind rfl)).1
  · rcases hf with rfl | rfl
    · exact Table.text_text (htakes.kind rfl)
    · exact (Table.nat_count (htakes.kind rfl)).1
  · rcases hf with rfl | rfl | rfl | rfl | rfl
    · exact Table.optionalText_text? htakes
    · exact Table.optionalText_text? htakes
    · exact Table.text_text (htakes.kind rfl)
    · exact Table.text_text (htakes.kind rfl)
    · exact Table.optionalText_text? htakes
  · rcases hf with rfl | rfl | rfl | rfl
    · exact Table.text_text (htakes.kind rfl)
    · exact Table.text_word (htakes.kind rfl)
    · exact Table.bool_flag (htakes.kind rfl)
    · exact (Table.nat_count (htakes.kind rfl)).1

/-- Whether each number of some settings has a place in its bits. -/
def Config.Fits (c : Config) : Prop :=
  ∀ s ∈ form, ∀ f ∈ s.fields, ∀ bits name, f.kind = .count bits name →
    c.toTable.count s.name f.name < 1 <<< bits

/-- Only settings that take a text may be missing. -/
theorem text_of_optional : ∀ s ∈ form, ∀ f ∈ s.fields, f.optional = true →
    f.kind = plain ∨ f.kind = path := by
  decide

theorem fits_ofTable {t : Table} (h : t.HasForm) : (Config.ofTable t).Fits := by
  intro s hs f hf bits name hkind
  have htakes : f.kind.Takes (t.value s.name f.name) := by
    rcases h s hs f hf with ⟨hoptional, -⟩ | htakes
    · rcases text_of_optional s hs f hf hoptional with htext | htext
      · rw [hkind] at htext
        cases htext
      · rw [hkind] at htext
        cases htext
    · exact htakes
  rw [hkind, ← value_toTable_ofTable h hs hf] at htakes
  exact (Table.nat_count htakes).2

/-- **Each setting that is read is what its place converts to**, and each number has its place. -/
theorem toTable_of_ofItem {root : Item} {c : Config} (h : Config.ofItem root = .ok c) :
    c.Fits ∧ ∀ s ∈ form, ∀ f ∈ s.fields, ∀ i, root.at? s.name f.name = some i →
      i.convertField f = .ok (c.toTable.value s.name f.name) := by
  obtain ⟨t, ht, rfl⟩ := convertSections_of_ofItem h
  have hform := hasForm_of_convertSections ht
  refine ⟨fits_ofTable hform, fun s hs f hf i hi => ?_⟩
  rw [value_toTable_ofTable hform hs hf]
  exact value_of_convertSections ht hs hf hi

/-! ## Faults -/

theorem convertMembers_error {ms : Items} {fs : List Field} {fault : Fault}
    (h : convertMembers ms fs = .error fault) :
    ∃ f ∈ fs, ∃ i fault', ms.lookup f.name = some i ∧ i.convertField f = .error fault' ∧
      fault = fault'.within f.name := by
  induction fs with
  | nil => cases h
  | cons f fs ih =>
    rw [convertMembers] at h
    split at h
    · obtain ⟨g, hg, hfault⟩ := ih h
      exact ⟨g, List.mem_cons_of_mem _ hg, hfault⟩
    · next i hi =>
      rcases bind_eq_error h with h | ⟨v, -, h⟩
      · obtain ⟨fault', hconvert, rfl⟩ := mapError_eq_error h
        exact ⟨f, List.mem_cons_self, i, fault', hi, hconvert, rfl⟩
      · rcases bind_eq_error h with h | ⟨vs, -, h⟩
        · obtain ⟨g, hg, hfault⟩ := ih h
          exact ⟨g, List.mem_cons_of_mem _ hg, hfault⟩
        · cases h

theorem fillMissing_error {vs : Json.Members} {fs : List Field} {fault : Fault}
    (h : fillMissing vs fs = .error fault) : ∃ f ∈ fs, vs.lookup f.name = none := by
  induction fs with
  | nil => cases h
  | cons f fs ih =>
    rw [fillMissing] at h
    cases hv : vs.lookup f.name with
    | none => exact ⟨f, List.mem_cons_self, hv⟩
    | some v =>
      rw [hv] at h
      rcases bind_eq_error h with h | ⟨w, -, h⟩
      · cases h
      · rcases bind_eq_error h with h | ⟨rest, -, h⟩
        · obtain ⟨g, hg, hnone⟩ := ih h
          exact ⟨g, List.mem_cons_of_mem _ hg, hnone⟩
        · cases h

/-- A section of which every setting is there is at fault by one that does not convert. -/
theorem convertSection_error {s : Section} {i : Item} {fault : Fault}
    (h : convertSection s i = .error fault) (hnames : (s.fields.map Field.name).Nodup)
    (hfields : s.fields ≠ []) (hthere : ∀ f ∈ s.fields, (i.members.lookup f.name).isSome = true) :
    ∃ f ∈ s.fields, ∃ j fault', i.members.lookup f.name = some j ∧
      j.convertField f = .error fault' ∧ fault = fault'.within f.name := by
  obtain ⟨f, hf⟩ := List.exists_mem_of_ne_nil _ hfields
  cases i with
  | scalar x o => cases hthere f hf
  | list is o => cases hthere f hf
  | table ms o =>
    rw [convertSection] at h
    rcases bind_eq_error h with h | ⟨vs, hvs, h⟩
    · exact convertMembers_error h
    · obtain ⟨g, hg, hnone⟩ := fillMissing_error h
      obtain ⟨j, hj⟩ := Option.isSome_iff_exists.1 (hthere g hg)
      obtain ⟨v, -, hlookup⟩ := convertMembers_lookup hvs hnames hg hj
      rw [hlookup] at hnone
      cases hnone

theorem convertSections_error {ms : Items} {ss : List Section} {fault : Fault}
    (h : convertSections ms ss = .error fault)
    (hthere : ∀ s ∈ ss, (ms.lookup s.name).isSome = true) :
    ∃ s ∈ ss, ∃ i fault', ms.lookup s.name = some i ∧ convertSection s i = .error fault' ∧
      fault = fault'.within s.name := by
  induction ss with
  | nil => cases h
  | cons s ss ih =>
    obtain ⟨i, hi⟩ := Option.isSome_iff_exists.1 (hthere s List.mem_cons_self)
    rw [convertSections] at h
    simp only [hi, pure_bind] at h
    rcases bind_eq_error h with h | ⟨vs, -, h⟩
    · obtain ⟨fault', hsection, rfl⟩ := mapError_eq_error h
      exact ⟨s, List.mem_cons_self, i, fault', hi, hsection, rfl⟩
    · rcases bind_eq_error h with h | ⟨rest, -, h⟩
      · obtain ⟨r, hr, hfault⟩ := ih h fun r hr => hthere r (List.mem_cons_of_mem _ hr)
        exact ⟨r, List.mem_cons_of_mem _ hr, hfault⟩
      · cases h

/-- **A layer with a place for every setting is at fault by one that does not convert.** -/
theorem fault_of_ofItem {root : Item} {fault : Fault} (h : Config.ofItem root = .error fault)
    (hthere : ∀ s ∈ form, ∀ f ∈ s.fields, (root.at? s.name f.name).isSome = true) :
    ∃ s ∈ form, ∃ f ∈ s.fields, ∃ i fault', root.at? s.name f.name = some i ∧
      i.convertField f = .error fault' ∧ fault = (fault'.within f.name).within s.name := by
  have hnonempty : ∀ s ∈ form, s.fields ≠ [] := by
    decide
  have hsections : convertSections root.members form = .error fault := by
    rw [Config.ofItem] at h
    cases ht : convertSections root.members form with
    | error fault' =>
      rw [ht] at h
      cases h
      rfl
    | ok t =>
      rw [ht] at h
      cases h
  have hplaces : ∀ s ∈ form, (root.members.lookup s.name).isSome = true := by
    intro s hs
    obtain ⟨f, hf⟩ := List.exists_mem_of_ne_nil _ (hnonempty s hs)
    obtain ⟨i, hi⟩ := Option.isSome_iff_exists.1 (hthere s hs f hf)
    obtain ⟨j, hj, -⟩ := Option.bind_eq_some_iff.1 hi
    rw [hj]
    rfl
  obtain ⟨s, hs, i, fault', hi, hsection, rfl⟩ := convertSections_error hsections hplaces
  have hat : ∀ f : Field, root.at? s.name f.name = i.members.lookup f.name := by
    intro f
    rw [Item.at?, hi]
    rfl
  obtain ⟨f, hf, j, fault'', hj, hconvert, rfl⟩ :=
    convertSection_error hsection (nodup_names.2 s hs) (hnonempty s hs) fun f hf => by
      rw [← hat f]
      exact hthere s hs f hf
  exact ⟨s, hs, f, hf, j, fault'', (hat f).trans hj, hconvert, rfl⟩

/-! ## Settings by their values -/

theorem ofTable_congr {t t' : Table}
    (h : ∀ s ∈ form, ∀ f ∈ s.fields, t.value s.name f.name = t'.value s.name f.name) :
    Config.ofTable t = Config.ofTable t' := by
  have hcount : ∀ {sect key : String}, t.value sect key = t'.value sect key →
      t.count sect key = t'.count sect key := by
    intro sect key heq
    rw [Table.count, heq, Table.count]
  have hoption : ∀ {sect key : String}, t.value sect key = t'.value sect key →
      t.text? sect key = t'.text? sect key := by
    intro sect key heq
    rw [Table.text?, heq, Table.text?]
  have htext : ∀ {sect key : String}, t.value sect key = t'.value sect key →
      t.text sect key = t'.text sect key := by
    intro sect key heq
    rw [Table.text, hoption heq, Table.text]
  have hflag : ∀ {sect key : String}, t.value sect key = t'.value sect key →
      t.flag sect key = t'.flag sect key := by
    intro sect key heq
    rw [Table.flag, heq, Table.flag]
  simp only [form, List.mem_cons, List.not_mem_nil, or_false, forall_eq_or_imp, forall_eq] at h
  obtain ⟨⟨hcapacity, hbatch, htick, hshutdown⟩, ⟨hurl, hlimit, hretries, hdelay⟩,
    ⟨hgateway, htimeout⟩, ⟨hinput, houtput, htopic, horg, haccount⟩,
    hlevel, hformat, hmetrics, hport⟩ := h
  unfold Config.ofTable
  rw [hcount hcapacity, hcount hbatch, hcount htick, hcount hshutdown, htext hurl, hcount hlimit,
    hcount hretries, hcount hdelay, htext hgateway, hcount htimeout, hoption hinput,
    hoption houtput, htext htopic, htext horg, hoption haccount, htext hlevel, htext hformat,
    hflag hmetrics, hcount hport]

/-- Settings with the same values are the same. -/
theorem Config.eq_of_value {c c' : Config}
    (h : ∀ s ∈ form, ∀ f ∈ s.fields,
      c.toTable.value s.name f.name = c'.toTable.value s.name f.name) : c = c' := by
  rw [← Config.ofTable_toTable c, ← Config.ofTable_toTable c', ofTable_congr h]

theorem fits_of_load {file : Option Bytes} {environment : List (String × String)} {c : Config}
    (h : Config.load file environment = .ok c) : c.Fits := by
  obtain ⟨layer, -, hitem, -⟩ := load_eq_ok h
  exact (toTable_of_ofItem hitem).1

end Availability.Settings
