import Availability.Proofs.Settings.Reading
import Availability.Proofs.Sequences

/-!
# Layers by their keys

A file whose names are plain, with a table of scalars for each section, and an environment whose
variables are those of single settings: laying either over a layer gives the place of a setting
what it says of that setting, and else leaves the place as it was.

* `at?_fileLayer`: a plain file laid over a layer.
* `at?_environmentLayer`: a plain environment laid over a layer.
-/

namespace Availability.Settings

/-! ## Names in whatever case -/

section Named

variable {β : Type} {name : String}

/-- What stands under a name, in whatever case it is written. -/
def named? (ms : List (String × β)) (name : String) : Option β :=
  (ms.find? fun m => Text.lower m.1 == name).map Prod.snd

/-- Whether no two names differ by the case of their letters only. -/
def Distinct (ms : List (String × β)) : Prop := (ms.map fun m => Text.lower m.1).Nodup

instance (ms : List (String × β)) : Decidable (Distinct ms) := List.nodupDecidable _

theorem named?_cons_same {k : String} (h : Text.lower k = name) (v : β) (ms : List (String × β)) :
    named? ((k, v) :: ms) name = some v := by
  have hfound : (Text.lower k == name) = true := beq_iff_eq.2 h
  simp only [named?, List.find?_cons, hfound, Option.map_some]

theorem named?_cons_other {k : String} (h : Text.lower k ≠ name) (v : β)
    (ms : List (String × β)) : named? ((k, v) :: ms) name = named? ms name := by
  have hpassed : (Text.lower k == name) = false := beq_eq_false_iff_ne.2 h
  simp only [named?, List.find?_cons, hpassed]

theorem Distinct.tail {m : String × β} {ms : List (String × β)} (h : Distinct (m :: ms)) :
    Distinct ms := (List.nodup_cons.1 h).2

theorem Distinct.named?_eq_none {k : String} {v : β} {ms : List (String × β)}
    (h : Distinct ((k, v) :: ms)) (hk : Text.lower k = name) : named? ms name = none := by
  have hnew : Text.lower k ∉ ms.map fun m => Text.lower m.1 := (List.nodup_cons.1 h).1
  rw [named?, Option.map_eq_none_iff, List.find?_eq_none]
  intro m hm heq
  apply hnew
  rw [hk, ← beq_iff_eq.1 heq]
  exact List.mem_map_of_mem hm

end Named

/-! ## The file -/

/-- Whether a name is bare: letters, digits, underscores and hyphens only. -/
def isBare (s : String) : Bool := !s.toList.isEmpty && s.toList.all isNameChar

/-- Whether a value of the file has no parts. -/
def isScalar : Toml.Value → Bool
  | .array _ => false
  | .table _ => false
  | _ => true

/-- Whether a value of the file is a table of scalars. -/
def IsPlainTable : Toml.Value → Prop
  | .table ms => Distinct ms ∧ ∀ m ∈ ms, isScalar m.2 = true
  | _ => False

instance (v : Toml.Value) : Decidable (IsPlainTable v) :=
  match v with
  | .table ms => inferInstanceAs (Decidable (Distinct ms ∧ ∀ m ∈ ms, isScalar m.2 = true))
  | .text _ | .integer _ | .real _ | .bool _ | .moment _ | .array _ => isFalse nofun

/-- A file with bare names in which each section, where it is present, is a table of scalars. -/
structure PlainFile (members : List (String × Toml.Value)) : Prop where
  bare : ∀ m ∈ members, isBare m.1 = true
  distinct : Distinct members
  sections : ∀ m ∈ members, ∀ s ∈ form, Text.lower m.1 = s.name → IsPlainTable m.2

instance (members : List (String × Toml.Value)) : Decidable (PlainFile members) :=
  decidable_of_iff
    ((∀ m ∈ members, isBare m.1 = true) ∧ Distinct members ∧
      ∀ m ∈ members, ∀ s ∈ form, Text.lower m.1 = s.name → IsPlainTable m.2)
    ⟨fun ⟨hbare, hdistinct, hsections⟩ => ⟨hbare, hdistinct, hsections⟩,
      fun h => ⟨h.bare, h.distinct, h.sections⟩⟩

/-- What a file says of a setting. -/
def fileItem? (members : List (String × Toml.Value)) (sect key : String) : Option Item :=
  (named? members sect).bind fun
    | .table ms => (named? ms key).map Item.ofToml
    | _ => none

theorem ofToml_of_isScalar {v : Toml.Value} (h : isScalar v = true) :
    ∃ s o, Item.ofToml v = .scalar s o := by
  cases v with
  | array vs => cases h
  | table ms => cases h
  | _ => exact ⟨_, _, rfl⟩

namespace Item

variable {sect key name : String}

/-- Scalars laid over a table: under each name stands what they say, if they say something. -/
theorem lookup_layAll {ms : List (String × Toml.Value)} (hdistinct : Distinct ms)
    (hscalars : ∀ m ∈ ms, isScalar m.2 = true) (target : Item) :
    (layAll (membersOfToml ms) target).members.lookup key =
      ((named? ms key).map Item.ofToml).or (target.members.lookup key) := by
  induction ms generalizing target with
  | nil => rfl
  | cons m ms ih =>
    obtain ⟨k, v⟩ := m
    obtain ⟨s, o, hv⟩ := ofToml_of_isScalar (hscalars _ List.mem_cons_self)
    have hlaid := ih hdistinct.tail (fun m hm => hscalars m (List.mem_cons_of_mem _ hm))
      (target.putMember (Text.lower k) (.scalar s o))
    simp only [membersOfToml, layAll, hv, lay]
    rw [hlaid]
    by_cases hk : Text.lower k = key
    · rw [hdistinct.named?_eq_none hk, named?_cons_same hk, ← hk, lookup_putMember_same,
        Option.map_some, hv]
      rfl
    · rw [named?_cons_other hk, lookup_putMember_other _ _ (Ne.symm hk)]

theorem layTop_of_isBare (h : isBare name = true) (i root : Item) :
    layTop name i root = lay name i root := by
  simp only [isBare, Bool.and_eq_true, Bool.not_eq_true', List.all_eq_true] at h
  have hread : readName name.toList = some (.name name, []) := by
    unfold readName
    have hdrop := dropWhile_eq_nil h.2
    simp only [takeWhile_eq_self hdrop, hdrop, h.1, String.ofList_toList]
    rfl
  have hpath : pathOf? name = some [.name name] := by
    unfold pathOf?
    simp [hread, readSteps]
  rw [layTop, hpath]
  rfl

theorem at?_lay_other (h : sect ≠ Text.lower name) (i root : Item) :
    (lay name i root).at? sect key = root.at? sect key := by
  cases i with
  | scalar s o => exact at?_putMember_other _ _ h
  | list is o => exact at?_putMember_other _ _ h
  | table ms o => exact at?_putMember_other _ _ h

/-- A table of scalars laid over a section. -/
theorem at?_lay_same {v : Toml.Value} (hname : Text.lower name = sect) (hv : IsPlainTable v)
    (root : Item) :
    (lay name (Item.ofToml v) root).at? sect key =
      (match v with
        | .table ms => (named? ms key).map Item.ofToml
        | _ => none).or (root.at? sect key) := by
  cases v with
  | table ms =>
    rw [Item.ofToml, lay, hname, at?_putMember_same, lookup_layAll hv.1 hv.2, at?_eq]
    cases root.members.lookup sect <;> rfl
  | _ => exact hv.elim

end Item

/-- **A plain file laid over a layer**: each setting is what the file says of it, if it says
something. -/
theorem at?_fileLayer {members : List (String × Toml.Value)} (h : PlainFile members) {s : Section}
    (hs : s ∈ form) (key : String) (root : Item) :
    (Item.layLayer (membersOfToml members) root).at? s.name key =
      (fileItem? members s.name key).or (root.at? s.name key) := by
  induction members generalizing root with
  | nil => rfl
  | cons m members ih =>
    obtain ⟨k, v⟩ := m
    have hrest : PlainFile members :=
      ⟨fun m hm => h.bare m (List.mem_cons_of_mem _ hm), h.distinct.tail,
        fun m hm => h.sections m (List.mem_cons_of_mem _ hm)⟩
    have hlaid := ih hrest (Item.layTop k (Item.ofToml v) root)
    rw [Item.layTop_of_isBare (h.bare _ List.mem_cons_self)] at hlaid
    change (Item.layLayer (membersOfToml members)
      (Item.layTop k (Item.ofToml v) root)).at? s.name key = _
    rw [Item.layTop_of_isBare (h.bare _ List.mem_cons_self), hlaid]
    by_cases hk : Text.lower k = s.name
    · have hplain := h.sections _ List.mem_cons_self s hs hk
      rw [Item.at?_lay_same hk hplain, fileItem?, fileItem?, h.distinct.named?_eq_none hk,
        named?_cons_same hk]
      rfl
    · rw [Item.at?_lay_other (Ne.symm hk), fileItem?, fileItem?, named?_cons_other hk]

/-! ## The environment -/

/-- Whether no two underscores follow each other. -/
def isSpaced : List Char → Bool
  | '_' :: '_' :: _ => false
  | _ :: r => isSpaced r
  | [] => true

theorem isSpaced_cons {c : Char} {cs : List Char} (h : isSpaced (c :: cs) = true) :
    isSpaced cs = true ∧ ∀ r, c = '_' → cs ≠ '_' :: r := by
  unfold isSpaced at h
  split at h
  · cases h
  · next hother heq =>
    cases heq
    exact ⟨h, fun r hc hcs => hother r hc hcs⟩
  · next heq => cases heq

theorem isSpaced_of_cons {c : Char} {cs : List Char} (h : isSpaced cs = true)
    (hfirst : ∀ r, c = '_' → cs ≠ '_' :: r) : isSpaced (c :: cs) = true := by
  rw [isSpaced]
  · exact h
  · exact hfirst

/-- A word can be followed by an underscore unless it ends in one. -/
theorem isSpaced_snoc {cs : List Char} (h : isSpaced cs = true) :
    isSpaced (cs ++ ['_']) = true ∨ ∃ x, cs = x ++ ['_'] ∧ isSpaced (x ++ ['_']) = true := by
  induction cs with
  | nil => exact .inl rfl
  | cons c cs ih =>
    obtain ⟨hrest, hfirst⟩ := isSpaced_cons h
    rcases ih hrest with hsnoc | ⟨x, rfl, -⟩
    · cases cs with
      | nil =>
        by_cases hc : c = '_'
        · exact .inr ⟨[], by rw [hc]; rfl, rfl⟩
        · exact .inl (isSpaced_of_cons hsnoc fun r heq => absurd heq hc)
      | cons d cs =>
        refine .inl (isSpaced_of_cons hsnoc fun r hc heq => hfirst cs hc ?_)
        injection heq with hd _
        rw [hd]
    · exact .inr ⟨c :: x, rfl, h⟩

/-- A word can follow an underscore unless it begins with one. -/
theorem isSpaced_underscore {cs : List Char} (h : isSpaced cs = true) :
    isSpaced ('_' :: cs) = true ∨ ∃ r, cs = '_' :: r := by
  cases cs with
  | nil => exact .inl rfl
  | cons c cs =>
    by_cases hc : c = '_'
    · exact .inr ⟨cs, by rw [hc]⟩
    · refine .inl (isSpaced_of_cons h fun r _ heq => hc ?_)
      injection heq

theorem dotted_cons {c : Char} {cs : List Char} (h : ∀ r, c = '_' → cs ≠ '_' :: r) :
    dotted (c :: cs) = c :: dotted cs := by
  rw [dotted]
  exact h

theorem dotted_of_isSpaced {cs : List Char} (h : isSpaced cs = true) : dotted cs = cs := by
  induction cs with
  | nil => rfl
  | cons c cs ih =>
    obtain ⟨hrest, hfirst⟩ := isSpaced_cons h
    rw [dotted_cons hfirst, ih hrest]

/-- The first two underscores that follow each other are taken for a dot. -/
theorem dotted_append {cs : List Char} (h : isSpaced (cs ++ ['_']) = true) (rest : List Char) :
    dotted (cs ++ '_' :: '_' :: rest) = cs ++ '.' :: dotted rest := by
  induction cs with
  | nil => rw [List.nil_append, List.nil_append, dotted]
  | cons c cs ih =>
    obtain ⟨hrest, hfirst⟩ := isSpaced_cons h
    have hother : ∀ r, c = '_' → cs ++ '_' :: '_' :: rest ≠ '_' :: r := by
      intro r hc hcs
      cases cs with
      | nil => exact hfirst [] hc rfl
      | cons d cs =>
        injection hcs with hd _
        exact hfirst (cs ++ ['_']) hc (by rw [hd]; rfl)
    rw [List.cons_append, dotted_cons hother, ih hrest, List.cons_append]

/-- What the name of the variable of a setting is in lower case. -/
def variableName (sect key : String) : String := "statuser__" ++ sect ++ "__" ++ key

/-- Whether two names are words: letters, digits, hyphens and single underscores. -/
def AreWords (sect key : String) : Prop :=
  isName sect = true ∧ isName key = true ∧ isSpaced sect.toList = true ∧
    isSpaced key.toList = true

/-- Whether two words are parted by the first two underscores between them. -/
def AreParted (sect key : String) : Prop :=
  isName sect = true ∧ isName key = true ∧ isSpaced (sect.toList ++ ['_']) = true ∧
    isSpaced key.toList = true

instance (sect key : String) : Decidable (AreWords sect key) :=
  inferInstanceAs (Decidable (_ ∧ _))

instance (sect key : String) : Decidable (AreParted sect key) :=
  inferInstanceAs (Decidable (_ ∧ _))

theorem areParted_of_mem : ∀ s ∈ form, ∀ f ∈ s.fields, AreParted s.name f.name := by
  simp [form, AreParted, isName, isSpaced, isNameChar, Text.lowerChar]

theorem toList_of_variableName {name sect key : String}
    (h : Text.lower name = variableName sect key) :
    (Text.lower name).toList = envStart ++ (sect.toList ++ '_' :: '_' :: key.toList) := by
  simp [h, variableName, envStart]

theorem envPath?_of_variableName {name sect key : String} (hparted : AreParted sect key)
    (h : Text.lower name = variableName sect key) :
    envPath? name = some (String.ofList (sect.toList ++ '.' :: key.toList)) := by
  obtain ⟨-, -, hsect, hkey⟩ := hparted
  rw [envPath?_of_lower (toList_of_variableName h), dotted_append hsect, dotted_of_isSpaced hkey]

/-! ### Variables of other settings -/

section Other

variable {sect key : String}

theorem leadsTo_pair {a b : String} (ha : isName a = true) (hb : isName b = true)
    (h : sect ≠ a ∨ key ≠ b) :
    leadsTo sect key (String.ofList (a.toList ++ '.' :: b.toList)) = false := by
  unfold leadsTo
  rw [pathOf?_pair ha hb]
  simp only [lower_of_isName ha, lower_of_isName hb]
  rcases h with h | h
  · simp [Ne.symm h]
  · simp [Ne.symm h]

theorem isNameChar_of_isName {s : String} (h : isName s = true) :
    ∀ c ∈ s.toList, isNameChar c = true ∧ Text.lowerChar c = c := by
  intro c hc
  simp only [isName, Bool.and_eq_true, List.all_eq_true, beq_iff_eq] at h
  exact h.2 c hc

theorem isName_ofList {cs : List Char} (hne : cs ≠ [])
    (h : ∀ c ∈ cs, isNameChar c = true ∧ Text.lowerChar c = c) :
    isName (String.ofList cs) = true := by
  simp only [isName, String.toList_ofList, Bool.and_eq_true, Bool.not_eq_true',
    List.isEmpty_eq_false_iff, List.all_eq_true, beq_iff_eq]
  exact ⟨hne, h⟩

/-- What is no path, for want of a name beside a dot, leads to no setting. -/
theorem leadsTo_of_gap (hsect : isName sect = true) {cs rest : List Char}
    (hcs : ∀ c ∈ cs, isNameChar c = true ∧ Text.lowerChar c = c)
    (hgap : cs = [] ∨ ∃ r, rest = '.' :: r) :
    leadsTo sect key (String.ofList (cs ++ '.' :: rest)) = false := by
  have hnone : pathOf? (String.ofList (cs ++ '.' :: rest)) = none := by
    unfold pathOf?
    rw [String.toList_ofList]
    by_cases hempty : cs = []
    · rw [hempty]
      rfl
    · obtain ⟨r, rfl⟩ := hgap.resolve_left hempty
      have hread := readName_append (isName_ofList hempty hcs) ('.' :: '.' :: r)
        (by rintro c ⟨⟩; rfl)
      rw [String.toList_ofList] at hread
      simp only [hread]
      rfl
  have hdot : Text.lower (String.ofList (cs ++ '.' :: rest)) ≠ sect := by
    rintro rfl
    have hmem : '.' ∈ (Text.lower (String.ofList (cs ++ '.' :: rest))).toList := by
      rw [Text.lower, String.toList_ofList, String.toList_ofList, List.map_append, List.map_cons]
      exact List.mem_append_right _ List.mem_cons_self
    have hchar := (isNameChar_of_isName hsect _ hmem).1
    revert hchar
    decide
  unfold leadsTo
  rw [hnone]
  exact beq_eq_false_iff_ne.2 hdot

/-- The variable of two words leads to no setting but its own. -/
theorem leadsTo_of_variableName (hparted : AreParted sect key) {name a b : String}
    (hwords : AreWords a b) (hname : Text.lower name = variableName a b)
    (hother : Text.lower name ≠ variableName sect key) :
    ∃ path, envPath? name = some path ∧ leadsTo sect key path = false := by
  obtain ⟨ha, hb, hspaced, hkey⟩ := hwords
  have hpath := envPath?_of_lower (toList_of_variableName hname)
  rcases isSpaced_snoc hspaced with hsect | ⟨x, hx, hsect⟩
  · rw [dotted_append hsect, dotted_of_isSpaced hkey] at hpath
    refine ⟨_, hpath, leadsTo_pair ha hb ?_⟩
    by_cases heq : sect = a
    · refine .inr fun hkeys => hother ?_
      rw [hname, heq, hkeys]
    · exact .inl heq
  · -- the section ends in an underscore, so the two before the last of the three count
    have hchars : ∀ c ∈ x, isNameChar c = true ∧ Text.lowerChar c = c := by
      intro c hc
      refine isNameChar_of_isName ha c ?_
      rw [hx]
      exact List.mem_append_left _ hc
    rw [hx, List.append_assoc, List.singleton_append, dotted_append hsect] at hpath
    refine ⟨_, hpath, ?_⟩
    by_cases hempty : x = []
    · exact leadsTo_of_gap hparted.1 hchars (.inl hempty)
    rcases isSpaced_underscore hkey with hbefore | ⟨r, hr⟩
    · rw [dotted_of_isSpaced hbefore]
      have hunder : isName (String.ofList ('_' :: b.toList)) = true := by
        refine isName_ofList (List.cons_ne_nil _ _) fun c hc => ?_
        rcases List.mem_cons.1 hc with rfl | hc
        · exact ⟨rfl, rfl⟩
        · exact isNameChar_of_isName hb c hc
      rw [← String.toList_ofList (l := x), ← String.toList_ofList (l := '_' :: b.toList)]
      apply leadsTo_pair (isName_ofList hempty hchars) hunder
      by_cases heq : sect = String.ofList x
      · refine .inr fun hkeys => hother ?_
        apply String.toList_inj.1
        rw [hname, heq, hkeys]
        simp [variableName, hx]
      · exact .inl heq
    · rw [hr, dotted]
      exact leadsTo_of_gap hparted.1 hchars (.inr ⟨_, rfl⟩)

end Other

/-! ### The layer -/

/-- An environment whose variables, those of other programs apart, are those of single settings. -/
structure PlainEnvironment (environment : List (String × String)) : Prop where
  names : ∀ v ∈ environment, (envPath? v.1).isSome = true →
    ∃ sect key, AreWords sect key ∧ Text.lower v.1 = variableName sect key
  distinct : Distinct (environment.filter fun v => (envPath? v.1).isSome)

/-- What the environment says of a setting. -/
def variableItem? (environment : List (String × String)) (sect key : String) : Option Item :=
  (named? environment (variableName sect key)).map fun s =>
    .scalar (Scalar.ofVariable s) (some .environment)

theorem PlainEnvironment.tail {v : String × String} {environment : List (String × String)}
    (h : PlainEnvironment (v :: environment)) : PlainEnvironment environment := by
  refine ⟨fun v hv => h.names v (List.mem_cons_of_mem _ hv), ?_⟩
  have hdistinct := h.distinct
  rw [List.filter_cons] at hdistinct
  split at hdistinct
  · exact hdistinct.tail
  · exact hdistinct

/-- No other variable is that of the same setting. -/
theorem PlainEnvironment.named?_eq_none {name s : String} {environment : List (String × String)}
    (h : PlainEnvironment ((name, s) :: environment)) {sect key : String}
    (hparted : AreParted sect key) (hname : Text.lower name = variableName sect key) :
    named? environment (variableName sect key) = none := by
  have hpath : ∀ v : String × String, Text.lower v.1 = variableName sect key →
      (envPath? v.1).isSome = true := by
    intro v hv
    rw [envPath?_of_variableName hparted hv]
    rfl
  have hdistinct := h.distinct
  have hkept := hpath (name, s) hname
  rw [List.filter_cons, if_pos hkept] at hdistinct
  have hnone := hdistinct.named?_eq_none hname
  rw [named?, Option.map_eq_none_iff, List.find?_eq_none] at hnone ⊢
  intro v hv heq
  exact hnone v (List.mem_filter.2 ⟨hv, hpath v (beq_iff_eq.1 heq)⟩) heq

/-- **A plain environment laid over a layer**: each setting is what its variable says, if it is
there. -/
theorem at?_environmentLayer {environment : List (String × String)}
    (h : PlainEnvironment environment) {sect key : String} (hparted : AreParted sect key)
    (root : Item) :
    (Item.layLayer (environmentLayer environment) root).at? sect key =
      (variableItem? environment sect key).or (root.at? sect key) := by
  induction environment generalizing root with
  | nil => rfl
  | cons v environment ih =>
    obtain ⟨name, s⟩ := v
    rw [environmentLayer, List.filterMap_cons]
    cases hpath : envPath? name with
    | none =>
      have hother : Text.lower name ≠ variableName sect key := by
        intro heq
        rw [envPath?_of_variableName hparted heq] at hpath
        cases hpath
      rw [variableItem?, named?_cons_other hother]
      exact ih h.tail root
    | some path =>
      have hlaid := ih h.tail (Item.layTop path (.scalar (Scalar.ofVariable s)
        (some .environment)) root)
      change (Item.layLayer (environmentLayer environment) (Item.layTop path
        (.scalar (Scalar.ofVariable s) (some .environment)) root)).at? sect key = _
      rw [hlaid]
      by_cases heq : Text.lower name = variableName sect key
      · rw [variableItem?, variableItem?, h.named?_eq_none hparted heq, named?_cons_same heq]
        rw [envPath?_of_variableName hparted heq] at hpath
        cases hpath
        rw [Item.at?_layTop_self (isPathOf_pair hparted.1 hparted.2.1)]
        rfl
      · obtain ⟨a, b, hwords, hname⟩ := h.names _ List.mem_cons_self (by rw [hpath]; rfl)
        obtain ⟨path', hpath', hother⟩ := leadsTo_of_variableName hparted hwords hname heq
        rw [hpath] at hpath'
        cases hpath'
        rw [variableItem?, variableItem?, named?_cons_other heq, Item.at?_layTop_other hother]

end Availability.Settings
