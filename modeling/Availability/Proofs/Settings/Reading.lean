import Availability.Proofs.Results
import Availability.Settings.Load

/-!
# Settings by their places

A setting has a place of its own in a layer: a name in a table that has a name in the layer. What
is laid over another place leaves it as it was, and settings that are read have the value that
their own place converts to.

* `Item.at?_putMember_same`, `Item.at?_putMember_other`: one member of one section is laid over.
* `Item.at?_layTop_other`: a value laid over another place.
* `pathOf?_pair`, `isPathOf_pair`: the path of a setting.
* `value_of_convertSections`, `value_of_ofItem`: what is read of a layer, setting by setting.
-/

namespace Availability.Settings

/-! ## Places -/

namespace Item

variable {sect key : String}

/-- The item at the place of a setting. -/
def at? (root : Item) (sect key : String) : Option Item :=
  (root.members.lookup sect).bind fun i => i.members.lookup key

theorem at?_putMember_same (root i : Item) :
    (root.putMember sect i).at? sect key = i.members.lookup key := by
  rw [at?, lookup_putMember_same]
  rfl

theorem at?_putMember_other {name : String} (root i : Item) (h : sect ≠ name) :
    (root.putMember name i).at? sect key = root.at? sect key := by
  rw [at?, lookup_putMember_other root i h, at?]

theorem at?_eq (root : Item) :
    root.at? sect key = ((root.members.lookup sect).getD nothing).members.lookup key := by
  rw [at?]
  cases root.members.lookup sect with
  | none => rfl
  | some i => rfl

end Item

/-- Whether a path at the top of a layer leads to the place of a setting, through it or to the whole
section. -/
def leadsTo (sect key path : String) : Bool :=
  match pathOf? path with
  | some (.name a :: .name b :: _) => Text.lower a == sect && Text.lower b == key
  | some (.name a :: _) => Text.lower a == sect
  | _ => Text.lower path == sect

/-- Whether a path at the top of a layer is that of a setting. -/
def isPathOf (sect key path : String) : Bool :=
  match pathOf? path with
  | some [.name a, .name b] => Text.lower a == sect && Text.lower b == key
  | _ => false

/-- Whether a text can be a name in a path, and is in lower case. -/
def isName (s : String) : Bool :=
  !s.toList.isEmpty && s.toList.all fun c => isNameChar c && Text.lowerChar c == c

theorem lower_of_isName {s : String} (h : isName s = true) : Text.lower s = s := by
  have hlower : s.toList.map Text.lowerChar = s.toList.map id := by
    apply List.map_congr_left
    intro c hc
    simp only [isName, Bool.and_eq_true, List.all_eq_true, beq_iff_eq] at h
    exact (h.2 c hc).2
  rw [Text.lower, hlower, List.map_id, String.ofList_toList]

theorem readName_append {s : String} (h : isName s = true) (rest : List Char)
    (hrest : ∀ c ∈ rest.head?, isNameChar c = false) :
    readName (s.toList ++ rest) = some (.name s, rest) := by
  simp only [isName, Bool.and_eq_true, Bool.not_eq_true', List.all_eq_true] at h
  have hchars : ∀ c ∈ s.toList, isNameChar c = true := fun c hc => (h.2 c hc).1
  have hstops : rest.takeWhile isNameChar = [] ∧ rest.dropWhile isNameChar = rest := by
    cases rest with
    | nil => exact ⟨rfl, rfl⟩
    | cons c rest => simp [hrest c rfl]
  have htake : (s.toList ++ rest).takeWhile isNameChar = s.toList := by
    rw [List.takeWhile_append_of_pos hchars, hstops.1, List.append_nil]
  have hdrop : (s.toList ++ rest).dropWhile isNameChar = rest := by
    rw [List.dropWhile_append_of_pos hchars, hstops.2]
  unfold readName
  simp only [htake, hdrop, h.1, String.ofList_toList]
  rfl

/-- Two names with a dot between them are the path of a setting. -/
theorem pathOf?_pair {sect key : String} (hsect : isName sect = true) (hkey : isName key = true) :
    pathOf? (String.ofList (sect.toList ++ '.' :: key.toList)) =
      some [.name sect, .name key] := by
  have hdot : ∀ c ∈ ('.' :: key.toList).head?, isNameChar c = false := by
    rintro c ⟨⟩
    rfl
  have hfirst := readName_append hsect _ hdot
  have hsecond := readName_append hkey [] nofun
  rw [List.append_nil] at hsecond
  unfold pathOf?
  rw [String.toList_ofList]
  simp [hfirst, hsecond, readSteps]

theorem isPathOf_pair {sect key : String} (hsect : isName sect = true) (hkey : isName key = true) :
    isPathOf sect key (String.ofList (sect.toList ++ '.' :: key.toList)) = true := by
  unfold isPathOf
  rw [pathOf?_pair hsect hkey]
  simp [lower_of_isName hsect, lower_of_isName hkey]

theorem envPath?_of_lower {name : String} {rest : List Char}
    (h : (Text.lower name).toList = envStart ++ rest) :
    envPath? name = some (String.ofList (dotted rest)) := by
  unfold envPath?
  simp only [h]
  rw [List.take_left' rfl, if_pos rfl, List.drop_left' rfl]

namespace Item

variable {sect key path : String} {s : Scalar} {o : Option Origin}

theorem at?_layTop_self (h : isPathOf sect key path = true) (root : Item) :
    (layTop path (.scalar s o) root).at? sect key = some (.scalar s o) := by
  unfold isPathOf at h
  split at h
  · next a b hpath =>
    obtain ⟨rfl, rfl⟩ : Text.lower a = sect ∧ Text.lower b = key := by simpa using h
    rw [layTop, hpath]
    simp only [layAt]
    rw [at?_putMember_same, lay, lookup_putMember_same]
  · cases h

theorem pathOf?_eq_some {steps : List Step} (h : pathOf? path = some steps) :
    ∃ k rest, steps = .name k :: rest := by
  unfold pathOf? readName at h
  simp only [Option.bind_eq_bind] at h
  obtain ⟨⟨step, r⟩, hname, h⟩ := Option.bind_eq_some_iff.1 h
  obtain ⟨rest, -, h⟩ := Option.bind_eq_some_iff.1 h
  split at hname
  · cases hname
  · cases hname
    cases h
    exact ⟨_, rest, rfl⟩

/-- A path lays over the member that its first name names. -/
theorem layAt_name (k : String) (rest : List Step) (root : Item) :
    ∃ i, layAt (.scalar s o) (.name k :: rest) root = root.putMember (Text.lower k) i := by
  cases rest with
  | nil => exact ⟨_, rfl⟩
  | cons step rest => exact ⟨_, rfl⟩

theorem layAt_name_name (k l : String) (rest : List Step) (root : Item) :
    layAt (.scalar s o) (.name k :: .name l :: rest) root =
      root.putMember (Text.lower k)
        (layAt (.scalar s o) (.name l :: rest)
          ((root.members.lookup (Text.lower k)).getD nothing)) := rfl

/-- Within a section another member is laid over. -/
theorem at?_layAt_within {a b : String} (h : key ≠ Text.lower b) (rest : List Step) (root : Item) :
    (layAt (.scalar s o) (.name a :: .name b :: rest) root).at? (Text.lower a) key =
      root.at? (Text.lower a) key := by
  obtain ⟨i, hi⟩ := layAt_name (s := s) (o := o) b rest
    ((root.members.lookup (Text.lower a)).getD nothing)
  rw [layAt_name_name, hi, at?_putMember_same, lookup_putMember_other _ _ h, at?_eq]

/-- A scalar laid over another place leaves the place of a setting as it was. -/
theorem at?_layTop_other (h : leadsTo sect key path = false) (root : Item) :
    (layTop path (.scalar s o) root).at? sect key = root.at? sect key := by
  unfold leadsTo at h
  unfold layTop
  cases hpath : pathOf? path with
  | none =>
    rw [hpath] at h
    have hsect : sect ≠ Text.lower path := by
      rintro rfl
      simp at h
    exact at?_putMember_other _ _ hsect
  | some steps =>
    obtain ⟨a, rest, rfl⟩ := pathOf?_eq_some hpath
    rw [hpath] at h
    by_cases ha : sect = Text.lower a
    · subst ha
      match rest with
      | .name b :: rest =>
        have hb : key ≠ Text.lower b := by
          rintro rfl
          simp at h
        exact at?_layAt_within hb rest root
      | [] => simp at h
      | .place n :: rest => simp at h
    · obtain ⟨i, hi⟩ := layAt_name (s := s) (o := o) a rest root
      simp only [hi]
      exact at?_putMember_other _ _ ha

/-- What a layer of scalars makes of the place of a setting: the last of the paths to it counts if
it leads to the setting itself. -/
theorem at?_layLayer {before after : Items} {root : Item}
    (h : isPathOf sect key path = true)
    (hafter : ∀ m ∈ after, leadsTo sect key m.1 = false ∧ ∃ s o, m.2 = .scalar s o) :
    (layLayer (before ++ (path, .scalar s o) :: after) root).at? sect key =
      some (.scalar s o) := by
  rw [layLayer, List.foldl_append, List.foldl_cons]
  generalize before.foldl (fun root m => layTop m.1 m.2 root) root = root
  suffices hkept : ∀ root : Item, root.at? sect key = some (.scalar s o) →
      (after.foldl (fun root m => layTop m.1 m.2 root) root).at? sect key = some (.scalar s o) from
    hkept _ (at?_layTop_self h root)
  intro root hroot
  induction after generalizing root with
  | nil => exact hroot
  | cons m after ih =>
    obtain ⟨name, i⟩ := m
    obtain ⟨hother, s', o', rfl⟩ := hafter _ List.mem_cons_self
    refine ih (fun m hm => hafter m (List.mem_cons_of_mem _ hm)) _ ?_
    exact (at?_layTop_other hother root).trans hroot

end Item

/-! ## Reading a layer -/

theorem eq_ok_of_toOption {ε α : Type} {x : Except ε α} {a : α} (h : x.toOption = some a) :
    x = .ok a := by
  cases x with
  | error e => cases h
  | ok b =>
    cases h
    rfl

section Lookup

variable {β : Type}

theorem lookup_cons_same (name : String) (v : β) (vs : List (String × β)) :
    ((name, v) :: vs).lookup name = some v := by
  rw [List.lookup_cons, beq_self_eq_true]

theorem lookup_cons_other {name other : String} (h : other ≠ name) (v : β)
    (vs : List (String × β)) : ((name, v) :: vs).lookup other = vs.lookup other := by
  have hbeq : (other == name) = false := beq_eq_false_iff_ne.2 h
  rw [List.lookup_cons, hbeq]

/-- A name that is no other's differs from all of them. -/
theorem name_ne {name : β → String} {x y : β} {xs : List β} (hnew : name x ∉ xs.map name)
    (hy : y ∈ xs) : name y ≠ name x := by
  intro heq
  exact hnew (heq ▸ List.mem_map_of_mem hy)

end Lookup

theorem convertMembers_lookup {ms : Items} {fs : List Field} {vs : Json.Members}
    (h : convertMembers ms fs = .ok vs) (hnames : (fs.map Field.name).Nodup) {f : Field}
    (hf : f ∈ fs) {i : Item} (hi : ms.lookup f.name = some i) :
    ∃ v, i.convertField f = .ok v ∧ vs.lookup f.name = some v := by
  induction fs generalizing vs with
  | nil => cases hf
  | cons g fs ih =>
    obtain ⟨hnew, hnames⟩ := List.nodup_cons.1 hnames
    rw [convertMembers] at h
    rcases List.mem_cons.1 hf with rfl | hf
    · simp only [hi] at h
      obtain ⟨v, hv, h⟩ := bind_eq_ok h
      obtain ⟨rest, -, h⟩ := bind_eq_ok h
      cases h
      exact ⟨v, mapError_eq_ok hv, lookup_cons_same _ _ _⟩
    · have hne := name_ne hnew hf
      split at h
      · exact ih h hnames hf
      · obtain ⟨w, -, h⟩ := bind_eq_ok h
        obtain ⟨rest, hrest, h⟩ := bind_eq_ok h
        cases h
        obtain ⟨v, hv, hlookup⟩ := ih hrest hnames hf
        exact ⟨v, hv, (lookup_cons_other hne _ _).trans hlookup⟩

theorem fillMissing_cons {vs ws : Json.Members} {f : Field} {fs : List Field}
    (h : fillMissing vs (f :: fs) = .ok ws) :
    ∃ w rest, fillMissing vs fs = .ok rest ∧ ws = (f.name, w) :: rest ∧
      (vs.lookup f.name = some w ∨
        vs.lookup f.name = none ∧ f.optional = true ∧ w = .null) := by
  rw [fillMissing] at h
  split at h
  · next w hw =>
    obtain ⟨_, hpure, h⟩ := bind_eq_ok h
    obtain ⟨rest, hrest, h⟩ := bind_eq_ok h
    cases hpure
    cases h
    exact ⟨w, rest, hrest, rfl, .inl hw⟩
  · next hnone =>
    split at h
    · next hoptional =>
      obtain ⟨_, hpure, h⟩ := bind_eq_ok h
      obtain ⟨rest, hrest, h⟩ := bind_eq_ok h
      cases hpure
      cases h
      exact ⟨_, rest, hrest, rfl, .inr ⟨hnone, hoptional, rfl⟩⟩
    · cases h

theorem fillMissing_lookup {vs ws : Json.Members} {fs : List Field}
    (h : fillMissing vs fs = .ok ws) (hnames : (fs.map Field.name).Nodup) {f : Field}
    (hf : f ∈ fs) {v : Json.Value} (hv : vs.lookup f.name = some v) :
    ws.lookup f.name = some v := by
  induction fs generalizing ws with
  | nil => cases hf
  | cons g fs ih =>
    obtain ⟨hnew, hnames⟩ := List.nodup_cons.1 hnames
    obtain ⟨w, rest, hrest, rfl, hw⟩ := fillMissing_cons h
    rcases List.mem_cons.1 hf with rfl | hf
    · rw [hv] at hw
      rcases hw with hw | ⟨hnone, -⟩
      · cases hw
        exact lookup_cons_same _ _ _
      · cases hnone
    · have hne := name_ne hnew hf
      exact (lookup_cons_other hne _ _).trans (ih hrest hnames hf)

theorem convertSections_lookup {ms : Items} {ss : List Section} {t : Table}
    (h : convertSections ms ss = .ok t) (hnames : (ss.map Section.name).Nodup) {s : Section}
    (hs : s ∈ ss) :
    ∃ i vs, ms.lookup s.name = some i ∧ convertSection s i = .ok vs ∧
      t.lookup s.name = some vs := by
  induction ss generalizing t with
  | nil => cases hs
  | cons r ss ih =>
    obtain ⟨hnew, hnames⟩ := List.nodup_cons.1 hnames
    rw [convertSections] at h
    obtain ⟨i, hi⟩ : ∃ i, ms.lookup r.name = some i := by
      cases hi : ms.lookup r.name with
      | none =>
        rw [hi] at h
        cases h
      | some i => exact ⟨i, rfl⟩
    simp only [hi, pure_bind] at h
    obtain ⟨vs, hvs, h⟩ := bind_eq_ok h
    obtain ⟨rest, hrest, h⟩ := bind_eq_ok h
    cases h
    rcases List.mem_cons.1 hs with rfl | hs
    · exact ⟨i, vs, hi, mapError_eq_ok hvs, lookup_cons_same _ _ _⟩
    · have hne := name_ne hnew hs
      obtain ⟨i', vs', hlookup, hconvert, ht⟩ := ih hrest hnames hs
      exact ⟨i', vs', hlookup, hconvert, (lookup_cons_other hne _ _).trans ht⟩

theorem nodup_names : (form.map Section.name).Nodup ∧
    ∀ s ∈ form, (s.fields.map Field.name).Nodup := by
  decide

theorem convertSections_of_ofItem {root : Item} {c : Config} (h : Config.ofItem root = .ok c) :
    ∃ t, convertSections root.members form = .ok t ∧ c = Config.ofTable t := by
  rw [Config.ofItem] at h
  cases ht : convertSections root.members form with
  | error fault =>
    rw [ht] at h
    cases h
  | ok t =>
    rw [ht] at h
    cases h
    exact ⟨t, rfl, rfl⟩

/-- **What is read of a layer**: each setting has the value that its own place converts to. -/
theorem value_of_convertSections {root : Item} {t : Table}
    (h : convertSections root.members form = .ok t) {s : Section} (hs : s ∈ form) {f : Field}
    (hf : f ∈ s.fields) {i : Item} (hi : root.at? s.name f.name = some i) :
    i.convertField f = .ok (t.value s.name f.name) := by
  obtain ⟨j, vs, hj, hvs, hlookup⟩ := convertSections_lookup h nodup_names.1 hs
  rw [Item.at?, hj] at hi
  cases j with
  | scalar _ _ => cases hi
  | list _ _ => cases hi
  | table ms o =>
    rw [convertSection] at hvs
    obtain ⟨us, hus, hvs⟩ := bind_eq_ok hvs
    have hnames := nodup_names.2 s hs
    obtain ⟨v, hv, hfound⟩ := convertMembers_lookup hus hnames hf hi
    rw [hv, Table.value, hlookup, Option.getD_some, fillMissing_lookup hvs hnames hf hfound,
      Option.getD_some]

theorem value_of_ofItem {root : Item} {c : Config} (h : Config.ofItem root = .ok c) :
    ∃ t : Table, c = Config.ofTable t ∧ ∀ s ∈ form, ∀ f ∈ s.fields, ∀ i,
      root.at? s.name f.name = some i →
        ∃ v, i.convertField f = .ok v ∧ t.value s.name f.name = v := by
  obtain ⟨t, ht, rfl⟩ := convertSections_of_ofItem h
  exact ⟨t, rfl, fun s hs f hf i hi => ⟨_, value_of_convertSections ht hs hf hi, rfl⟩⟩

/-- What settings that load are: what the layers come to, and valid. -/
theorem load_eq_ok {file : Option Bytes} {environment : List (String × String)} {c : Config}
    (h : Config.load file environment = .ok c) :
    ∃ layer, fileLayer file = .ok layer ∧
      Config.ofItem (layered layer environment) = .ok c ∧ c.validate = none := by
  unfold Config.load at h
  split at h
  · cases h
  · next layer hlayer =>
    split at h
    · cases h
    · next hc =>
      split at h
      · cases h
      · next hvalid =>
        cases h
        exact ⟨layer, hlayer, hc, hvalid⟩

end Availability.Settings
