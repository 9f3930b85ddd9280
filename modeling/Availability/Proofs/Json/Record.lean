import Availability.Json.Record
import Availability.Proofs.Json.Skipping

/-!
# Records by the grammar

What a record takes of an object is told by the members of its names alone: each of them has to
have a text, and no two the same name. Whatever else the object holds only has to be well formed.
The fields of the records here are all required.

* `readTextValue_eq_ok_iff`: a value that is a text.
* `readFields_iff`: the fields that the members of an object leave.
* `lists_of_readFields`: what is read is a list of members.
* `read_object_iff`: a record of one field that is read from an object.
* `read_single_iff`: what such a record is read of, an object or an array that gives it its field.
-/

namespace Availability.Json

/-! ## Texts as values -/

theorem IsText.isValue {v : Bytes} {t : String} (h : IsText v t) : IsValue v := by
  cases h with
  | quoted hs => exact .text hs.quotable

theorem refuse_ne_ok {α : Type} (expected : String) (s : Bytes) (x : α) :
    (refuse expected s : Except Stop α) ≠ .ok x := by
  intro h
  obtain ⟨_, -, hstop⟩ := bind_eq_ok h
  cases hstop

theorem readTextValue_of_isText {w v : Bytes} {t : String} (hw : White w) (h : IsText v t)
    (r : Bytes) : readTextValue (w ++ (v ++ r)) = .ok (t, r) := by
  rw [readTextValue, hw.skipSpace, (h.isValue.opens.append r).skipSpace]
  cases h with
  | quoted hs => exact readText_eq_ok_iff.2 ⟨_, hs, by simp⟩

theorem isText_of_readTextValue {s r : Bytes} {t : String} (h : readTextValue s = .ok (t, r)) :
    ∃ w v, White w ∧ IsText v t ∧ s = w ++ (v ++ r) := by
  obtain ⟨w, hw, hs⟩ := exists_white s
  unfold readTextValue at h
  split at h
  · cases h
  · next heq =>
    obtain ⟨body, hbody, rfl⟩ := readText_eq_ok_iff.1 h
    rw [heq] at hs
    exact ⟨w, _, hw, .quoted hbody, by simp [hs]⟩
  · exact absurd h (refuse_ne_ok _ _ _)

/-- No two values that begin alike end at different bytes, if one of them is a text. -/
theorem IsText.unique {v v' w w' r r' : Bytes} {t : String} (hw : White w) (hw' : White w')
    (h : IsText v t) (hv' : IsValue v') (heq : w ++ (v ++ r) = w' ++ (v' ++ r')) :
    v = v' ∧ r = r' := by
  have hspace := congrArg skipSpace heq
  rw [hw.skipSpace, hw'.skipSpace, (h.isValue.opens.append r).skipSpace,
    (hv'.opens.append r').skipSpace] at hspace
  cases h with
  | quoted hs =>
    cases hv' with
    | text hs' =>
      simp only [List.cons_append, List.append_assoc, List.nil_append, List.cons.injEq,
        true_and] at hspace
      obtain ⟨rfl, rfl⟩ := hs.quotable.unique hs' hspace
      exact ⟨rfl, rfl⟩
    | number hs' =>
      obtain ⟨b, u, rfl, hb⟩ := hs'.starts
      rw [← (List.cons.inj hspace).1] at hb
      cases hb
    | _ => cases hspace

theorem readTextValue_eq_ok_iff {w v r r' : Bytes} {t : String} (hw : White w) (hv : IsValue v) :
    readTextValue (w ++ (v ++ r)) = .ok (t, r') ↔ IsText v t ∧ r' = r := by
  constructor
  · intro h
    obtain ⟨w', v', hw', hv', heq⟩ := isText_of_readTextValue h
    obtain ⟨rfl, rfl⟩ := hv'.unique hw' hw hv heq.symm
    exact ⟨hv', rfl⟩
  · rintro ⟨h, rfl⟩
    exact readTextValue_of_isText hw h r'

theorem readTextValue_skipSpace (s : Bytes) : readTextValue (skipSpace s) = readTextValue s := by
  rw [readTextValue, skipSpace_idem, readTextValue]

/-- A field that is required has a text. -/
theorem readFieldValue_required (s : Bytes) :
    readFieldValue .required s = (readTextValue s).map fun p => (some p.1, p.2) := by
  rw [readFieldValue, readTextValue_skipSpace]
  exact nofun

/-! ## One member -/

theorem placed_ok {α : Type} (a : α) : placed (.ok a) = .ok a := rfl

theorem placed_eq_ok {α : Type} {x : Except Stop α} {a : α} (h : placed x = .ok a) : x = .ok a :=
  mapError_eq_ok h

/-- What a member leaves of the fields of a record: one that is not of the form leaves them as
they were, and one that is has a text, the first for its name. -/
inductive Leaves (shape : Shape) (got : Record) : String × Bytes → Record → Prop where
  | other {name : String} {v : Bytes} :
      shape.fields.find? (·.name == name) = none → Leaves shape got (name, v) got
  | field {name text : String} {v : Bytes} {f : Field} :
      shape.fields.find? (·.name == name) = some f → got.lookup name = none → IsText v text →
      Leaves shape got (name, v) (got ++ [(name, some text)])

/-- Reads a member, from after the quote of its name, after the fields `got`. -/
def readMember (shape : Shape) (got : Record) (s : Bytes) : Except Halt (Record × Bytes) := do
  let (name, r) ← placed (readText s)
  match shape.fields.find? (·.name == name) with
  | some f =>
    if (got.lookup name).isSome then throw (.whole (.duplicateField name) r)
    else do
      let r ← placed (readColon r)
      let (v, r) ← placed (readFieldValue f.need r)
      pure (got ++ [(name, v)], r)
  | none => do
    let r ← placed (readColon r)
    let r ← placed (skipValue r)
    pure (got, r)

theorem readFields_succ (shape : Shape) (fuel : Nat) (got : Record) (s : Bytes) :
    readFields shape (fuel + 1) got s = (do
      let (got, r) ← readMember shape got s
      match ← placed (afterMember r) with
      | .next r => readFields shape fuel got r
      | .close r => pure (got, r)) := by
  rw [readFields, readMember]
  cases placed (readText s) with
  | error e => rfl
  | ok p =>
    obtain ⟨name, r⟩ := p
    simp only [bind, Except.bind]
    cases shape.fields.find? (·.name == name) with
    | none =>
      cases placed (readColon r) with
      | error e => rfl
      | ok r =>
        simp only
        cases placed (skipValue r) <;> rfl
    | some f =>
      by_cases hgot : (got.lookup name).isSome = true
      · simp only [hgot, if_true, throw, throwThe, MonadExceptOf.throw]
      · simp only [hgot]
        cases placed (readColon r) with
        | error e => rfl
        | ok r =>
          simp only
          cases placed (readFieldValue f.need r) <;> rfl

section Fields

variable {shape : Shape} (hrequired : ∀ f ∈ shape.fields, f.need = .required)

include hrequired

theorem readMember_iff {got got' : Record} {s w₂ w₃ v r r' : Bytes} {name : String}
    (hname : Spells s name.toList) (hw₂ : White w₂) (hw₃ : White w₃) (hv : IsValue v)
    (hr : Ends r) :
    readMember shape got (s ++ 0x22 :: (w₂ ++ 0x3A :: (w₃ ++ (v ++ r)))) = .ok (got', r') ↔
      Leaves shape got (name, v) got' ∧ r' = r := by
  have hread : readText (s ++ 0x22 :: (w₂ ++ 0x3A :: (w₃ ++ (v ++ r)))) = .ok (name, _) :=
    readText_eq_ok_iff.2 ⟨s, hname, rfl⟩
  simp only [readMember, hread, placed_ok, bind, Except.bind, readColon_append hw₂]
  cases hfind : shape.fields.find? (·.name == name) with
  | none =>
    simp only [skipValue_of_isValue hw₃ hv hr]
    constructor
    · intro h
      cases h
      exact ⟨.other hfind, rfl⟩
    · rintro ⟨hleaves, rfl⟩
      cases hleaves with
      | other => rfl
      | field hfind' => simp [hfind] at hfind'
  | some f =>
    have hneed := hrequired f (List.mem_of_find?_eq_some hfind)
    simp only [hneed, readFieldValue_required]
    cases hgot : got.lookup name with
    | some x =>
      simp only [Option.isSome_some, if_true]
      constructor
      · intro h
        cases h
      · rintro ⟨hleaves, -⟩
        cases hleaves with
        | other hfind' => simp [hfind] at hfind'
        | field _ hgot' => simp [hgot] at hgot'
    | none =>
      simp only [Option.isSome_none]
      constructor
      · intro h
        cases hvalue : readTextValue (w₃ ++ (v ++ r)) with
        | error e =>
          simp only [hvalue, Except.map] at h
          cases h
        | ok p =>
          obtain ⟨t, r₁⟩ := p
          obtain ⟨htext, hrest⟩ := (readTextValue_eq_ok_iff hw₃ hv).1 hvalue
          simp only [hvalue, Except.map] at h
          cases h
          exact ⟨.field hfind hgot htext, hrest⟩
      · rintro ⟨hleaves, rfl⟩
        cases hleaves with
        | other hfind' => simp [hfind] at hfind'
        | field _ _ htext =>
          simp only [readTextValue_of_isText hw₃ htext]
          rfl

/-- What is read is a member. -/
theorem member_of_readMember {got got' : Record} {s r : Bytes}
    (h : readMember shape got s = .ok (got', r)) :
    ∃ (name : String) (body w₂ w₃ v : Bytes), Spells body name.toList ∧ White w₂ ∧ White w₃ ∧
      IsValue v ∧ s = body ++ 0x22 :: (w₂ ++ 0x3A :: (w₃ ++ (v ++ r))) := by
  obtain ⟨⟨name, u⟩, hread, hafter⟩ := bind_eq_ok h
  obtain ⟨body, hbody, rfl⟩ := readText_eq_ok_iff.1 (placed_eq_ok hread)
  simp only at hafter
  split at hafter
  · next f hfind =>
    split at hafter
    · cases hafter
    obtain ⟨u₁, hcolon, hvalue⟩ := bind_eq_ok hafter
    obtain ⟨⟨x, u₂⟩, hfield, hrest⟩ := bind_eq_ok hvalue
    obtain ⟨w₂, hw₂, rfl⟩ := white_of_readColon (placed_eq_ok hcolon)
    rw [hrequired f (List.mem_of_find?_eq_some hfind), readFieldValue_required] at hfield
    obtain ⟨⟨t, u₃⟩, htext, hpair⟩ := map_eq_ok (placed_eq_ok hfield)
    cases hpair
    cases hrest
    obtain ⟨w₃, v, hw₃, hv, rfl⟩ := isText_of_readTextValue htext
    exact ⟨name, body, w₂, w₃, v, hbody, hw₂, hw₃, hv.isValue, rfl⟩
  · obtain ⟨u₁, hcolon, hvalue⟩ := bind_eq_ok hafter
    obtain ⟨u₂, hskip, hrest⟩ := bind_eq_ok hvalue
    obtain ⟨w₂, hw₂, rfl⟩ := white_of_readColon (placed_eq_ok hcolon)
    obtain ⟨w₃, v, hw₃, hv, rfl⟩ := isValue_of_skipValue (placed_eq_ok hskip)
    cases hrest
    exact ⟨name, body, w₂, w₃, v, hbody, hw₂, hw₃, hv, rfl⟩

end Fields

/-! ## What follows a member -/

theorem afterMember_close {w : Bytes} (hw : White w) (r : Bytes) :
    afterMember (w ++ 0x7D :: r) = .ok (.close r) := by
  rw [afterMember, hw.skipSpace, skipSpace_cons rfl]
  rfl

theorem afterMember_next {w w' : Bytes} (hw : White w) (hw' : White w') (r : Bytes) :
    afterMember (w ++ 0x2C :: (w' ++ 0x22 :: r)) = .ok (.next r) := by
  rw [afterMember, hw.skipSpace, skipSpace_cons rfl]
  simp only [hw'.skipSpace, skipSpace_cons (show isSpace 0x22 = false from rfl)]

theorem eq_of_afterMember {s : Bytes} {a : After} (h : afterMember s = .ok a) :
    ∃ w, White w ∧ ((∃ r, a = .close r ∧ s = w ++ 0x7D :: r) ∨
      ∃ w' r, White w' ∧ a = .next r ∧ s = w ++ 0x2C :: (w' ++ 0x22 :: r)) := by
  obtain ⟨w, hw, hs⟩ := exists_white s
  refine ⟨w, hw, ?_⟩
  unfold afterMember at h
  split at h
  · cases h
  · next heq =>
    cases h
    rw [heq] at hs
    exact .inl ⟨_, rfl, hs⟩
  · next u heq =>
    obtain ⟨w', hw', hu⟩ := exists_white u
    rw [heq, hu] at hs
    split at h
    · cases h
    · next heq' =>
      cases h
      rw [heq'] at hs
      exact .inr ⟨w', _, hw', rfl, hs⟩
    · cases h
    · cases h
  · cases h

/-! ## All members -/

theorem Lists.pad {w s : Bytes} {ms : List (String × Bytes)} (hw : White w) (h : Lists s ms) :
    Lists (w ++ s) ms := by
  cases h with
  | last hw₁ hname hw₂ hw₃ hv hw₄ =>
    have hpad := Lists.last (hw.append hw₁) hname hw₂ hw₃ hv hw₄
    simpa [memberBytes] using hpad
  | more hw₁ hname hw₂ hw₃ hv hw₄ hs =>
    have hpad := Lists.more (hw.append hw₁) hname hw₂ hw₃ hv hw₄ hs
    simpa [memberBytes] using hpad

/-- The white space in front of the first name. -/
theorem Lists.opens {s : Bytes} {ms : List (String × Bytes)} (h : Lists s ms) :
    ∃ w t, White w ∧ s = w ++ 0x22 :: t := by
  cases h with
  | last hw => exact ⟨_, _, hw, rfl⟩
  | more hw => exact ⟨_, _, hw, List.append_assoc ..⟩

theorem Lists.length_le {s : Bytes} {ms : List (String × Bytes)} (h : Lists s ms) :
    ms.length ≤ s.length := by
  induction h with
  | last => simp only [memberBytes, List.length_append, List.length_cons, List.length_nil]; omega
  | more _ _ _ _ _ _ _ ih => simp only [List.length_append, List.length_cons]; omega

/-- What members leave, one after the other. -/
inductive LeaveAll (shape : Shape) : Record → List (String × Bytes) → Record → Prop where
  | nil {got : Record} : LeaveAll shape got [] got
  | cons {got got' got'' : Record} {m : String × Bytes} {ms : List (String × Bytes)} :
      Leaves shape got m got' → LeaveAll shape got' ms got'' → LeaveAll shape got (m :: ms) got''

/-- Members are read one at a time: what the first of them leaves goes on to the next. -/
theorem readFields_member {shape : Shape} {m : String × Bytes} {s rest : Bytes} {a : After}
    {fuel : Nat} {got got' : Record} {r' : Bytes}
    (hmember : ∀ got₁ r₁,
      readMember shape got s = .ok (got₁, r₁) ↔ Leaves shape got m got₁ ∧ r₁ = rest)
    (hafter : afterMember rest = .ok a) :
    readFields shape (fuel + 1) got s = .ok (got', r') ↔
      ∃ got₁, Leaves shape got m got₁ ∧
        (match a with
        | .next r => readFields shape fuel got₁ r
        | .close r => .ok (got₁, r)) = .ok (got', r') := by
  rw [readFields_succ]
  constructor
  · intro h
    obtain ⟨⟨got₁, r₁⟩, hread, hrest⟩ := bind_eq_ok h
    obtain ⟨hleaves, rfl⟩ := (hmember got₁ r₁).1 hread
    simp only [hafter, placed_ok, bind, Except.bind] at hrest
    exact ⟨got₁, hleaves, hrest⟩
  · rintro ⟨got₁, hleaves, hrest⟩
    simp only [(hmember _ _).2 ⟨hleaves, rfl⟩, hafter, placed_ok, bind, Except.bind]
    exact hrest

section Fields

variable {shape : Shape} (hrequired : ∀ f ∈ shape.fields, f.need = .required)

include hrequired

/-- Of an object as much is read as its members leave, up to the bracket. -/
theorem readFields_iff {t : Bytes} {ms : List (String × Bytes)} (h : Lists t ms) {u : Bytes}
    (hu : skipSpace t = 0x22 :: u) {fuel : Nat} (hfuel : ms.length ≤ fuel) {got got' : Record}
    {r r' : Bytes} :
    readFields shape fuel got (u ++ 0x7D :: r) = .ok (got', r') ↔
      LeaveAll shape got ms got' ∧ r' = r := by
  -- each member takes one unit of the fuel
  induction h generalizing u fuel got with
  | @last w₁ s w₂ w₃ v w₄ name hw₁ hname hw₂ hw₃ hv hw₄ =>
    obtain ⟨k, rfl⟩ : ∃ k, fuel = k + 1 := ⟨fuel - 1, by simp at hfuel; omega⟩
    rw [memberBytes, hw₁.skipSpace, skipSpace_cons rfl] at hu
    rw [← (List.cons.inj hu).2]
    simp only [itemBytes, List.append_assoc, List.cons_append]
    rw [readFields_member (fun got₁ r₁ => readMember_iff hrequired hname hw₂ hw₃ hv
      (ends_append hw₄ (ends_membersEnd r))) (afterMember_close hw₄ r)]
    constructor
    · rintro ⟨got₁, hleaves, ⟨⟩⟩
      exact ⟨.cons hleaves .nil, rfl⟩
    · rintro ⟨hleaves, rfl⟩
      cases hleaves with
      | cons hleaves hnil =>
        cases hnil
        exact ⟨_, hleaves, rfl⟩
  | @more w₁ s w₂ w₃ v w₄ t name ms hw₁ hname hw₂ hw₃ hv hw₄ ht ih =>
    obtain ⟨k, rfl⟩ : ∃ k, fuel = k + 1 := ⟨fuel - 1, by simp at hfuel; omega⟩
    obtain ⟨w, t, hw, rfl⟩ := ht.opens
    have hrest : ∀ got₁, readFields shape k got₁ (t ++ 0x7D :: r) = .ok (got', r') ↔
        LeaveAll shape got₁ ms got' ∧ r' = r :=
      fun got₁ => ih (hw.skipSpace (0x22 :: t)) (Nat.le_of_succ_le_succ hfuel)
    rw [memberBytes, List.append_assoc, hw₁.skipSpace, List.cons_append, skipSpace_cons rfl] at hu
    rw [← (List.cons.inj hu).2]
    simp only [itemBytes, List.append_assoc, List.cons_append]
    rw [readFields_member (fun got₁ r₁ => readMember_iff hrequired hname hw₂ hw₃ hv
      (ends_append hw₄ (ends_comma _))) (afterMember_next hw₄ hw (t ++ 0x7D :: r))]
    constructor
    · rintro ⟨got₁, hleaves, hnext⟩
      obtain ⟨hall, rfl⟩ := (hrest got₁).1 hnext
      exact ⟨.cons hleaves hall, rfl⟩
    · rintro ⟨hleaves, rfl⟩
      cases hleaves with
      | cons hleaves hall => exact ⟨_, hleaves, (hrest _).2 ⟨hall, rfl⟩⟩

/-- What is read of an object are members. -/
theorem lists_of_readFields {fuel : Nat} {got got' : Record} {s r : Bytes}
    (h : readFields shape fuel got s = .ok (got', r)) :
    ∃ t ms, Lists (0x22 :: t) ms ∧ s = t ++ 0x7D :: r := by
  induction fuel generalizing got s with
  | zero => cases h
  | succ fuel ih =>
    rw [readFields_succ] at h
    obtain ⟨⟨got₁, r₁⟩, hread, hafter⟩ := bind_eq_ok h
    obtain ⟨name, body, w₂, w₃, v, hname, hw₂, hw₃, hv, rfl⟩ :=
      member_of_readMember hrequired hread
    obtain ⟨a, hplaced, hnext⟩ := bind_eq_ok hafter
    obtain ⟨w₄, hw₄, ⟨r₂, rfl, rfl⟩ | ⟨w, r₂, hw, rfl, rfl⟩⟩ :=
      eq_of_afterMember (placed_eq_ok hplaced)
    · cases hnext
      exact ⟨_, _, .last white_nil hname hw₂ hw₃ hv hw₄, by simp [itemBytes]⟩
    · obtain ⟨t, ms, ht, rfl⟩ := ih hnext
      exact ⟨_, _, .more white_nil hname hw₂ hw₃ hv hw₄ (ht.pad hw), by simp [itemBytes]⟩

end Fields

/-! ## Records of one field -/

/-- What a text gives a record of one field: the text of the only member of that name, or the only
item. -/
def Gives (key : String) (s : Bytes) (text : String) : Prop :=
  (∃ ms v, IsObjectOf s ms ∧ ms.filter (·.1 == key) = [(key, v)] ∧ IsText v text) ∨
    ∃ v, IsArrayOf s v ∧ IsText v text

theorem settle_eq_ok {α : Type} {seek : Bytes → Bytes} {x : Except Halt α} {a : α}
    (h : settle seek x = .ok a) : x = .ok a := by
  cases x with
  | ok b =>
    cases h
    rfl
  | error halt => cases halt <;> cases h

theorem readEnd_eq_ok_iff {s : Bytes} : readEnd s = .ok () ↔ White s := by
  constructor
  · intro h
    unfold readEnd at h
    split at h
    · next heq => exact white_of_skipSpace heq
    · cases h
  · intro h
    rw [readEnd, h.skipSpace_self]

theorem readWhole_eq_ok_iff {α : Type} {reader : Bytes → Except Stop (α × Bytes)} {s : Bytes}
    {x : α} : readWhole reader s = .ok x ↔ ∃ w, White w ∧ reader s = .ok (x, w) := by
  constructor
  · intro h
    obtain ⟨⟨y, w⟩, hread, hafter⟩ := bind_eq_ok (mapError_eq_ok h)
    obtain ⟨_, hend, hpure⟩ := bind_eq_ok hafter
    cases hpure
    exact ⟨w, readEnd_eq_ok_iff.1 hend, hread⟩
  · rintro ⟨w, hw, hread⟩
    simp only [readWhole, hread, bind, Except.bind, readEnd_eq_ok_iff.2 hw]
    rfl

section OneField

variable {name key : String}

/-- A record with one field, which is required. -/
def Shape.single (name key : String) : Shape := ⟨name, [⟨key, .required⟩]⟩

theorem required_single : ∀ f ∈ (Shape.single name key).fields, f.need = .required := by
  simp [Shape.single]

theorem find?_single (k : String) :
    (Shape.single name key).fields.find? (·.name == k) =
      if key = k then some ⟨key, .required⟩ else none := by
  by_cases h : key = k <;> simp [Shape.single, h]

theorem leaves_single_iff {got got' : Record} {m : String × Bytes} :
    Leaves (.single name key) got m got' ↔
      m.1 ≠ key ∧ got' = got ∨
        m.1 = key ∧ got.lookup key = none ∧ ∃ t, IsText m.2 t ∧ got' = got ++ [(key, some t)] := by
  obtain ⟨k, v⟩ := m
  constructor
  · intro h
    cases h with
    | other hfind =>
      rw [find?_single] at hfind
      refine .inl ⟨?_, rfl⟩
      rintro rfl
      simp at hfind
    | field hfind hgot htext =>
      rw [find?_single] at hfind
      split at hfind
      · next heq =>
        subst heq
        exact .inr ⟨rfl, hgot, _, htext, rfl⟩
      · cases hfind
  · rintro (⟨hne, rfl⟩ | ⟨rfl, hgot, t, htext, rfl⟩)
    · exact .other (by rw [find?_single, if_neg (Ne.symm hne)])
    · exact .field (by rw [find?_single, if_pos rfl]) hgot htext

theorem leaveAll_present_iff {ms : List (String × Bytes)} {x : Option String} {got : Record} :
    LeaveAll (.single name key) [(key, x)] ms got ↔
      ms.filter (·.1 == key) = [] ∧ got = [(key, x)] := by
  induction ms with
  | nil =>
    constructor
    · intro h
      cases h
      exact ⟨rfl, rfl⟩
    · rintro ⟨-, rfl⟩
      exact .nil
  | cons m ms ih =>
    constructor
    · intro h
      cases h with
      | cons hm hms =>
        rcases leaves_single_iff.1 hm with ⟨hne, rfl⟩ | ⟨-, hgot, -⟩
        · rw [List.filter_cons_of_neg (by simpa using hne)]
          exact ih.1 hms
        · simp at hgot
    · rintro ⟨hfilter, rfl⟩
      have hne : m.1 ≠ key := by
        intro heq
        rw [List.filter_cons_of_pos (by simpa using heq)] at hfilter
        cases hfilter
      rw [List.filter_cons_of_neg (by simpa using hne)] at hfilter
      exact .cons (leaves_single_iff.2 (.inl ⟨hne, rfl⟩)) (ih.2 ⟨hfilter, rfl⟩)

theorem leaveAll_absent_iff {ms : List (String × Bytes)} {got : Record} :
    LeaveAll (.single name key) [] ms got ↔
      ms.filter (·.1 == key) = [] ∧ got = [] ∨
        ∃ v t, ms.filter (·.1 == key) = [(key, v)] ∧ IsText v t ∧ got = [(key, some t)] := by
  induction ms with
  | nil =>
    constructor
    · intro h
      cases h
      exact .inl ⟨rfl, rfl⟩
    · rintro (⟨-, rfl⟩ | ⟨v, t, hfilter, -⟩)
      · exact .nil
      · cases hfilter
  | cons m ms ih =>
    obtain ⟨k, v⟩ := m
    by_cases hk : k = key
    · subst hk
      rw [List.filter_cons_of_pos (by simp)]
      constructor
      · intro h
        cases h with
        | cons hm hms =>
          obtain ⟨hne, -⟩ | ⟨-, -, t, htext, rfl⟩ := leaves_single_iff.1 hm
          · exact absurd rfl hne
          · obtain ⟨hfilter, rfl⟩ := leaveAll_present_iff.1 hms
            exact .inr ⟨v, t, by rw [hfilter], htext, rfl⟩
      · rintro (⟨hfilter, -⟩ | ⟨v', t, hfilter, htext, rfl⟩)
        · cases hfilter
        · obtain ⟨hv, hnone⟩ := List.cons.inj hfilter
          cases hv
          exact .cons (leaves_single_iff.2 (.inr ⟨rfl, rfl, t, htext, rfl⟩))
            (leaveAll_present_iff.2 ⟨hnone, rfl⟩)
    · rw [List.filter_cons_of_neg (by simpa using hk), ← ih]
      constructor
      · intro h
        cases h with
        | cons hm hms =>
          obtain ⟨-, rfl⟩ | ⟨heq, -⟩ := leaves_single_iff.1 hm
          · exact hms
          · exact absurd heq hk
      · intro h
        exact .cons (leaves_single_iff.2 (.inl ⟨hk, rfl⟩)) h

/-- The fields that members leave, with none lacking, are a record. -/
theorem fillAbsent_leaveAll_iff {ms : List (String × Bytes)} {record : Record} :
    (∃ got, LeaveAll (.single name key) [] ms got ∧
        fillAbsent got (Shape.single name key).fields = .ok record) ↔
      ∃ v t, ms.filter (·.1 == key) = [(key, v)] ∧ IsText v t ∧ record = [(key, some t)] := by
  have hfill : ∀ t, fillAbsent [(key, some t)] (Shape.single name key).fields =
      .ok [(key, some t)] := by
    intro t
    simp [fillAbsent, Shape.single, bind, Except.bind, pure, Except.pure]
  constructor
  · rintro ⟨got, hleave, hrecord⟩
    rcases leaveAll_absent_iff.1 hleave with ⟨-, rfl⟩ | ⟨v, t, hfilter, htext, rfl⟩
    · cases hrecord
    · rw [hfill] at hrecord
      cases hrecord
      exact ⟨v, t, hfilter, htext, rfl⟩
  · rintro ⟨v, t, hfilter, htext, rfl⟩
    exact ⟨_, leaveAll_absent_iff.2 (.inr ⟨v, t, hfilter, htext, rfl⟩), hfill t⟩

end OneField

/-! ## Whole texts -/

section Fields

variable {shape : Shape} (hrequired : ∀ f ∈ shape.fields, f.need = .required)

theorem readObjectRecord_empty {w r r' : Bytes} (hw : White w) {record : Record} :
    readObjectRecord shape (w ++ 0x7D :: r) = .ok (record, r') ↔
      fillAbsent [] shape.fields = .ok record ∧ r' = r := by
  rw [readObjectRecord, hw.skipSpace, skipSpace_cons rfl]
  cases fillAbsent [] shape.fields with
  | ok x =>
    simp only [Except.ok.injEq, Prod.mk.injEq]
    exact and_congr_right fun _ => eq_comm
  | error fault => simp [Stop.before]

include hrequired

theorem readObjectRecord_iff {t : Bytes} {ms : List (String × Bytes)} (h : Lists t ms)
    {r r' : Bytes} {record : Record} :
    readObjectRecord shape (t ++ 0x7D :: r) = .ok (record, r') ↔
      (∃ got, LeaveAll shape [] ms got ∧ fillAbsent got shape.fields = .ok record) ∧ r' = r := by
  obtain ⟨w, u, hw, rfl⟩ := h.opens
  have hfuel : ms.length ≤ (w ++ 0x22 :: u ++ 0x7D :: r).length + 1 := by
    have hle := h.length_le
    simp only [List.length_append, List.length_cons] at hle ⊢
    omega
  have hfields : ∀ got r₁, _ ↔ LeaveAll shape [] ms got ∧ r₁ = r :=
    fun got r₁ => readFields_iff hrequired h (hw.skipSpace _) hfuel
  simp only [List.append_assoc, List.cons_append] at hfields ⊢
  rw [readObjectRecord, hw.skipSpace, skipSpace_cons rfl]
  constructor
  · intro h
    obtain ⟨⟨got, r₁⟩, hsettle, hfill⟩ := bind_eq_ok h
    obtain ⟨hleave, rfl⟩ := (hfields got r₁).1 (settle_eq_ok hsettle)
    cases hrecord : fillAbsent got shape.fields with
    | error fault => simp [hrecord, Stop.before] at hfill
    | ok x =>
      simp only [hrecord] at hfill
      cases hfill
      exact ⟨⟨got, hleave, hrecord⟩, rfl⟩
  · rintro ⟨⟨got, hleave, hrecord⟩, rfl⟩
    simp only [(hfields got r').2 ⟨hleave, rfl⟩, settle, bind, Except.bind, hrecord]
    rfl

/-- What a record takes of a text that is an object is told by the members. -/
theorem read_object_iff {s : Bytes} {ms : List (String × Bytes)} (h : IsObjectOf s ms)
    {record : Record} :
    Record.read shape s = .ok record ↔
      ∃ got, LeaveAll shape [] ms got ∧ fillAbsent got shape.fields = .ok record := by
  rw [Record.read, readWhole_eq_ok_iff]
  cases h with
  | empty hw hw' hw'' =>
    simp only [readRecord, hw.skipSpace, skipSpace_cons (show isSpace 0x7B = false from rfl),
      readObjectRecord_empty hw']
    constructor
    · rintro ⟨_, -, hfill, -⟩
      exact ⟨[], .nil, hfill⟩
    · rintro ⟨got, hnil, hfill⟩
      cases hnil
      exact ⟨_, hw'', hfill, rfl⟩
  | members hw hs hw' =>
    simp only [readRecord, hw.skipSpace, skipSpace_cons (show isSpace 0x7B = false from rfl),
      readObjectRecord_iff hrequired hs]
    constructor
    · rintro ⟨_, -, hleave, -⟩
      exact hleave
    · intro hleave
      exact ⟨_, hw', hleave, rfl⟩

theorem isObjectOf_of_readObjectRecord {s r w : Bytes} {record : Record} (hw : White w)
    (h : readObjectRecord shape s = .ok (record, r)) (hr : White r) :
    ∃ ms, IsObjectOf (w ++ 0x7B :: s) ms := by
  obtain ⟨w', hw', hs⟩ := exists_white s
  unfold readObjectRecord at h
  split at h
  · cases h
  · next heq =>
    rw [heq] at hs
    split at h
    · cases h
      exact ⟨_, by rw [hs]; exact .empty hw hw' hr⟩
    · cases h
  · next heq =>
    obtain ⟨⟨got, r₁⟩, hsettle, hfill⟩ := bind_eq_ok h
    obtain ⟨t, ms, hlists, hrest⟩ := lists_of_readFields hrequired (settle_eq_ok hsettle)
    simp only at hfill
    split at hfill
    · cases hfill
      rw [heq, hrest] at hs
      have hmembers := IsObjectOf.members hw (hlists.pad hw') hr
      exact ⟨ms, by simpa [hs] using hmembers⟩
    · cases hfill
  · cases h

end Fields

section OneField

variable {name key : String}

theorem readArrayEnd_of_white {w : Bytes} (hw : White w) (r : Bytes) :
    readArrayEnd (w ++ 0x5D :: r) = .ok r := by
  rw [readArrayEnd, hw.skipSpace, skipSpace_cons rfl]
  rfl

theorem white_of_readArrayEnd {s r : Bytes} (h : readArrayEnd s = .ok r) :
    ∃ w, White w ∧ s = w ++ 0x5D :: r := by
  obtain ⟨w, hw, hs⟩ := exists_white s
  unfold readArrayEnd at h
  split at h
  · cases h
  · next heq =>
    cases h
    exact ⟨w, hw, by rwa [heq] at hs⟩
  · split at h <;> cases h
  · cases h

theorem nextItem_text {w v : Bytes} {t : String} (hw : White w) (h : IsText v t) (r : Bytes) :
    nextItem true (w ++ (v ++ r)) = .ok (some (v ++ r)) := by
  rw [nextItem, hw.skipSpace, (h.isValue.opens.append r).skipSpace]
  cases h
  rfl

theorem eq_of_nextItem {s u : Bytes} (h : nextItem true s = .ok (some u)) : u = skipSpace s := by
  unfold nextItem at h
  split at h
  · cases h
  · cases h
  · cases h
    rfl

theorem readTuple_single_iff {s r : Bytes} {record : Record} :
    readTuple (.single name key) 0 (Shape.single name key).fields s = .ok (record, r) ↔
      ∃ w v t, White w ∧ IsText v t ∧ s = w ++ (v ++ r) ∧ record = [(key, some t)] := by
  constructor
  · intro h
    rw [Shape.single, readTuple] at h
    obtain ⟨item, hitem, hafter⟩ := bind_eq_ok h
    split at hafter
    · obtain ⟨⟨x, r₁⟩, hvalue, hrest⟩ := bind_eq_ok hafter
      rw [readFieldValue_required, eq_of_nextItem (placed_eq_ok hitem),
        readTextValue_skipSpace] at hvalue
      obtain ⟨⟨t, r₂⟩, htext, hpair⟩ := map_eq_ok (placed_eq_ok hvalue)
      cases hpair
      cases hrest
      obtain ⟨w, v, hw, hv, rfl⟩ := isText_of_readTextValue htext
      exact ⟨w, v, t, hw, hv, rfl, rfl⟩
    · cases hafter
  · rintro ⟨w, v, t, hw, htext, rfl, rfl⟩
    have hread := readTextValue_of_isText white_nil htext r
    rw [List.nil_append] at hread
    simp only [Shape.single, readTuple, beq_self_eq_true, nextItem_text hw htext, placed_ok,
      bind, Except.bind, readFieldValue_required, hread, Except.map]
    rfl

/-- A record of one field is read of an array of one text. -/
theorem readArrayRecord_single_iff {s r : Bytes} {record : Record} :
    readArrayRecord (.single name key) s = .ok (record, r) ↔
      ∃ w v w' t, White w ∧ IsText v t ∧ White w' ∧ s = itemBytes w v w' ++ 0x5D :: r ∧
        record = [(key, some t)] := by
  constructor
  · intro h
    obtain ⟨⟨x, r₁⟩, hsettle, hafter⟩ := bind_eq_ok h
    obtain ⟨r₂, hend, hpure⟩ := bind_eq_ok hafter
    cases hpure
    obtain ⟨w, v, t, hw, htext, rfl, rfl⟩ := readTuple_single_iff.1 (settle_eq_ok hsettle)
    obtain ⟨w', hw', rfl⟩ := white_of_readArrayEnd hend
    exact ⟨w, v, w', t, hw, htext, hw', by simp [itemBytes], rfl⟩
  · rintro ⟨w, v, w', t, hw, htext, hw', rfl, rfl⟩
    have htuple : readTuple (.single name key) 0 (Shape.single name key).fields
        (itemBytes w v w' ++ 0x5D :: r) = .ok ([(key, some t)], w' ++ 0x5D :: r) :=
      readTuple_single_iff.2 ⟨w, v, t, hw, htext, by simp [itemBytes], rfl⟩
    simp only [readArrayRecord, htuple, settle, bind, Except.bind, readArrayEnd_of_white hw']
    rfl

/-- A record of one field is read of the texts that give it one, and has it. -/
theorem read_single_iff {s : Bytes} {record : Record} :
    Record.read (.single name key) s = .ok record ↔
      ∃ t, Gives key s t ∧ record = [(key, some t)] := by
  constructor
  · intro h
    obtain ⟨r, hr, hread⟩ := readWhole_eq_ok_iff.1 h
    obtain ⟨w, hw, hs⟩ := exists_white s
    unfold readRecord at hread
    split at hread
    · cases hread
    · next heq =>
      obtain ⟨w₁, v, w₂, t, hw₁, htext, hw₂, rfl, rfl⟩ := readArrayRecord_single_iff.1 hread
      rw [heq] at hs
      exact ⟨t, .inr ⟨v, by rw [hs]; exact .item hw hw₁ hw₂ hr, htext⟩, rfl⟩
    · next heq =>
      obtain ⟨ms, hobject⟩ := isObjectOf_of_readObjectRecord required_single hw hread hr
      rw [← heq, ← hs] at hobject
      obtain ⟨v, t, hfilter, htext, rfl⟩ :=
        fillAbsent_leaveAll_iff.1 ((read_object_iff required_single hobject).1 h)
      exact ⟨t, .inl ⟨ms, v, hobject, hfilter, htext⟩, rfl⟩
    · exact absurd hread (refuse_ne_ok _ _ _)
  · rintro ⟨t, ⟨ms, v, hobject, hfilter, htext⟩ | ⟨v, harray, htext⟩, rfl⟩
    · rw [read_object_iff required_single hobject]
      exact fillAbsent_leaveAll_iff.2 ⟨v, t, hfilter, htext, rfl⟩
    · rw [Record.read, readWhole_eq_ok_iff]
      cases harray with
      | item hw hw₁ hw₂ hw' =>
        simp only [readRecord, hw.skipSpace, skipSpace_cons (show isSpace 0x5B = false from rfl)]
        exact ⟨_, hw', readArrayRecord_single_iff.2 ⟨_, v, _, t, hw₁, htext, hw₂, rfl, rfl⟩⟩

theorem Gives.unique {s : Bytes} {t t' : String} (h : Gives key s t) (h' : Gives key s t') :
    t = t' := by
  have hread : Record.read (.single "" key) s = .ok [(key, some t)] :=
    read_single_iff.2 ⟨t, h, rfl⟩
  rw [read_single_iff.2 ⟨t', h', rfl⟩] at hread
  cases hread
  rfl

/-- Of an object, only the members of the field's name matter. -/
theorem gives_object_iff {s : Bytes} {ms : List (String × Bytes)} (h : IsObjectOf s ms)
    {t : String} :
    Gives key s t ↔ ∃ v, ms.filter (·.1 == key) = [(key, v)] ∧ IsText v t := by
  constructor
  · intro hgives
    have hread : Record.read (.single "" key) s = .ok [(key, some t)] :=
      read_single_iff.2 ⟨t, hgives, rfl⟩
    obtain ⟨v, t', hfilter, htext, heq⟩ :=
      fillAbsent_leaveAll_iff.1 ((read_object_iff required_single h).1 hread)
    simp only [List.cons.injEq, Prod.mk.injEq, Option.some.injEq, true_and, and_true] at heq
    subst heq
    exact ⟨v, hfilter, htext⟩
  · rintro ⟨v, hfilter, htext⟩
    exact .inl ⟨ms, v, h, hfilter, htext⟩

end OneField

end Availability.Json
