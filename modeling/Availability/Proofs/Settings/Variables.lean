import Availability.Settings.Load
import Availability.Proofs.Number.Digits
import Availability.Proofs.Settings.Layers

/-!
# Texts that come by the environment

The value of a variable is taken for a truth value or a number where it looks like one, and a
setting that takes a text then gets the text of that value, which need not be the text that the
variable holds.

* `shown_eq_self_iff`: which texts come through unchanged.
* `load_text`: what a setting that takes a text gets from its variable.
-/

namespace Availability.Settings

open Digits (IsDecimal isDecimal_toDigits head?_toDigits toDigits_ofDigitChars)

/-! ## Integers as they are written -/

/-- Whether a text is an integer as it is written: with no plus, no zero before another digit and no
minus before a lone zero. -/
def isWritten : List Char → Bool
  | '-' :: ds => decide (IsDecimal ds ∧ ds ≠ ['0'])
  | ds => decide (IsDecimal ds)

theorem natOfDigits_eq (ds : List Char) :
    Extended.natOfDigits ds = Nat.ofDigitChars 10 ds 0 := by
  rw [Extended.natOfDigits, Nat.ofDigitChars_eq_foldl]
  congr 1
  funext n c
  rw [Nat.mul_comm]
  rfl

theorem toList_toString_int (i : Int) :
    (toString i).toList = (if i < 0 then ['-'] else []) ++ Nat.toDigits 10 i.natAbs := by
  cases i with
  | ofNat n => exact Nat.toList_repr
  | negSucc n =>
    rw [Int.toString_eq_repr, Int.repr, String.toList_append, Nat.toList_repr,
      if_pos (Int.negSucc_lt_zero n)]
    rfl

theorem isWritten_toString (i : Int) : isWritten (toString i).toList = true := by
  rw [toList_toString_int]
  have hdec := isDecimal_toDigits i.natAbs
  split
  · next hneg =>
    have hpos : 0 < i.natAbs := by omega
    have hne : Nat.toDigits 10 i.natAbs ≠ ['0'] := by
      intro heq
      exact head?_toDigits hpos (by rw [heq]; rfl)
    exact decide_eq_true ⟨hdec, hne⟩
  · rw [List.nil_append, isWritten]
    · exact decide_eq_true hdec
    · intro ds hds
      have hminus := hdec.isDigit (hds ▸ List.mem_cons_self)
      revert hminus
      decide

theorem integerOf?_eq_some {s : String} {i : Int} (h : integerOf? s = some i) :
    ∃ negative ds, Extended.splitSign s.toList = (negative, ds) ∧
      i = if negative then -(Nat.ofDigitChars 10 ds 0 : Int) else Nat.ofDigitChars 10 ds 0 := by
  unfold integerOf? at h
  refine ⟨(Extended.splitSign s.toList).1, (Extended.splitSign s.toList).2, rfl, ?_⟩
  simp only [natOfDigits_eq, Option.ite_none_left_eq_some, Option.ite_none_right_eq_some,
    Option.some.injEq] at h
  exact h.2.2.symm

theorem splitSign_of_isDecimal {cs : List Char} (h : IsDecimal cs) :
    Extended.splitSign cs = (false, cs) := by
  obtain ⟨c, r, rfl⟩ := List.exists_cons_of_ne_nil h.ne_nil
  have hc : c.isDigit = true := h.isDigit List.mem_cons_self
  unfold Extended.splitSign
  split
  · next heq =>
    cases heq
    cases hc
  · next heq =>
    cases heq
    cases hc
  · rfl

/-- An integer as it is written is written so again. -/
theorem toString_of_isWritten {s : String} {i : Int} (h : integerOf? s = some i)
    (hs : isWritten s.toList = true) : toString i = s := by
  obtain ⟨negative, ds, hsplit, rfl⟩ := integerOf?_eq_some h
  apply String.toList_inj.1
  rw [toList_toString_int]
  unfold isWritten at hs
  split at hs
  · next ds' hcs =>
    -- a minus is written back only where the number is not zero
    obtain ⟨hdec, hne⟩ := of_decide_eq_true hs
    rw [hcs] at hsplit ⊢
    cases hsplit
    have hdigits := toDigits_ofDigitChars hdec
    have hpos : Nat.ofDigitChars 10 ds 0 ≠ 0 := by
      intro hzero
      rw [hzero] at hdigits
      exact hne hdigits.symm
    have hneg : -(Nat.ofDigitChars 10 ds 0 : Int) < 0 := by omega
    rw [if_pos rfl, if_pos hneg, Int.natAbs_neg, Int.natAbs_natCast, hdigits]
    rfl
  · have hdec := of_decide_eq_true hs
    rw [splitSign_of_isDecimal hdec] at hsplit
    cases hsplit
    have hpos : ¬(Nat.ofDigitChars 10 s.toList 0 : Int) < 0 := by omega
    rw [if_neg Bool.false_ne_true, if_neg hpos, Int.natAbs_natCast, toDigits_ofDigitChars hdec]
    rfl

/-! ## Values of variables -/

/-- The text that a setting gets from the value of a variable. -/
def shown (s : String) : String :=
  match Scalar.ofVariable s with
  | .bool b => if b then "true" else "false"
  | .int i => toString i
  | .real x => x.toText
  | .text s => s
  | .nothing => ""

/-- Whether a setting gets the text that a variable holds: one that spells no truth value and no
number, or spells it in the one way in which it is written. -/
def Keeps (s : String) : Prop :=
  if Text.lower s = "true" then s = "true"
  else if Text.lower s = "false" then s = "false"
  else
    match integerOf? s, Extended.ofText? s with
    | some _, _ => isWritten s.toList = true
    | none, some x => x.toText = s
    | none, none => True

theorem shown_eq_self_iff (s : String) : shown s = s ↔ Keeps s := by
  unfold shown Keeps Scalar.ofVariable
  by_cases htrue : Text.lower s = "true"
  · rw [if_pos htrue, if_pos htrue]
    exact eq_comm
  by_cases hfalse : Text.lower s = "false"
  · rw [if_neg htrue, if_neg htrue, if_pos hfalse, if_pos hfalse]
    exact eq_comm
  rw [if_neg htrue, if_neg htrue, if_neg hfalse, if_neg hfalse]
  cases hint : integerOf? s with
  | some i =>
    constructor
    · intro h
      have hwritten := isWritten_toString i
      rwa [show toString i = s from h] at hwritten
    · exact toString_of_isWritten hint
  | none =>
    cases Extended.ofText? s with
    | some x => exact Iff.rfl
    | none => exact ⟨fun _ => trivial, fun _ => rfl⟩

instance (s : String) : Decidable (Keeps s) := decidable_of_iff _ (shown_eq_self_iff s)

example : shown "+5" = "5" ∧ shown "-5" = "-5" ∧ shown "007" = "7" ∧ shown "x007" = "x007" :=
  ⟨rfl, rfl, rfl, rfl⟩

theorem ofVariable_ne_nothing (s : String) : Scalar.ofVariable s ≠ .nothing := by
  unfold Scalar.ofVariable
  split
  · nofun
  · split
    · nofun
    · split <;> nofun

theorem toText_ofVariable (s : String) (o : Option Origin) :
    (Item.scalar (Scalar.ofVariable s) o).toText = .ok (shown s) := by
  have hne := ofVariable_ne_nothing s
  unfold shown
  cases hs : Scalar.ofVariable s with
  | nothing => exact absurd hs hne
  | _ => rfl

/-- A setting that takes a text takes any variable. -/
theorem convertField_ofVariable {f : Field} {name : String} (h : f.kind = .text name) (s : String)
    (o : Option Origin) :
    (Item.scalar (Scalar.ofVariable s) o).convertField f = .ok (.text (shown s)) := by
  have hconvert : (Item.scalar (Scalar.ofVariable s) o).convert f.kind = .ok (.text (shown s)) := by
    rw [h, Item.convert, toText_ofVariable]
    rfl
  rw [Item.convertField]
  · exact hconvert
  · intro o' _ hnothing
    injection hnothing with hs
    exact ofVariable_ne_nothing s hs

/-! ## Settings that take a text -/

/-- A setting that takes a text: its place, its variable, and its text, if it has one. -/
structure TextSetting where
  sect : String
  key : String
  variable_ : String
  get : Config → Option String

/-- All settings that take a text. -/
def textSettings : List TextSetting :=
  [⟨"sources", "url", "STATUSER__SOURCES__URL", fun c => some c.sources.url⟩,
    ⟨"probe", "gateway_url", "STATUSER__PROBE__GATEWAY_URL", fun c => some c.probe.gatewayUrl⟩,
    ⟨"transport", "input", "STATUSER__TRANSPORT__INPUT", fun c => c.transport.input⟩,
    ⟨"transport", "output", "STATUSER__TRANSPORT__OUTPUT", fun c => c.transport.output⟩,
    ⟨"transport", "topic", "STATUSER__TRANSPORT__TOPIC", fun c => some c.transport.topic⟩,
    ⟨"transport", "org_id", "STATUSER__TRANSPORT__ORG_ID", fun c => some c.transport.orgId⟩,
    ⟨"transport", "account_number", "STATUSER__TRANSPORT__ACCOUNT_NUMBER",
      fun c => c.transport.accountNumber⟩,
    ⟨"telemetry", "log_level", "STATUSER__TELEMETRY__LOG_LEVEL",
      fun c => some c.telemetry.logLevel⟩]

/-- Whether a setting takes a text. -/
def Kind.isText : Kind → Bool
  | .text _ => true
  | _ => false

theorem Kind.exists_text {k : Kind} (h : k.isText = true) : ∃ name, k = .text name := by
  cases k with
  | text name => exact ⟨name, rfl⟩
  | _ => cases h

variable {t : TextSetting}

theorem exists_field : ∀ t ∈ textSettings,
    ∃ s ∈ form, ∃ f ∈ s.fields, s.name = t.sect ∧ f.name = t.key ∧ f.kind.isText = true := by
  simp [textSettings, form, plain, path, Kind.isText]

theorem get_ofTable (ht : t ∈ textSettings) (values : Table) {x : String}
    (h : values.value t.sect t.key = .text x) : t.get (Config.ofTable values) = some x := by
  have htext : values.text? t.sect t.key = some x := by
    rw [Table.text?, h]
  simp only [textSettings, List.mem_cons, List.not_mem_nil, or_false] at ht
  rcases ht with rfl | rfl | rfl | rfl | rfl | rfl | rfl | rfl <;>
    simp only [Config.ofTable, Table.text] <;> simp [htext]

theorem lower_variable : ∀ t ∈ textSettings,
    Text.lower t.variable_ = variableName t.sect t.key := by
  simp only [textSettings, List.forall_mem_cons]
  refine ⟨?_, ?_, ?_, ?_, ?_, ?_, ?_, ?_, List.forall_mem_nil _⟩ <;> rfl

/-- The variable of a setting leads to the setting. -/
theorem envPath?_variable (ht : t ∈ textSettings) {name : String}
    (hname : Text.lower name = Text.lower t.variable_) :
    ∃ path, envPath? name = some path ∧ isPathOf t.sect t.key path = true := by
  obtain ⟨s, hs, f, hf, hsect, hkey, -⟩ := exists_field t ht
  have hparted : AreParted t.sect t.key := hsect ▸ hkey ▸ areParted_of_mem s hs f hf
  exact ⟨_, envPath?_of_variableName hparted (hname.trans (lower_variable t ht)),
    isPathOf_pair hparted.1 hparted.2.1⟩

theorem mem_environmentLayer {environment : List (String × String)} {m : String × Item}
    (hm : m ∈ environmentLayer environment) :
    ∃ v ∈ environment, envPath? v.1 = some m.1 ∧
      m.2 = .scalar (Scalar.ofVariable v.2) (some .environment) := by
  obtain ⟨v, hv, h⟩ := List.mem_filterMap.1 hm
  obtain ⟨path, hpath, rfl⟩ := Option.map_eq_some_iff.1 h
  exact ⟨v, hv, hpath, rfl⟩

theorem ofItem_of_load {file : Option Bytes} {environment : List (String × String)} {c : Config}
    (h : Config.load file environment = .ok c) :
    ∃ layer, Config.ofItem (layered layer environment) = .ok c := by
  obtain ⟨layer, -, hitem, -⟩ := load_eq_ok h
  exact ⟨layer, hitem⟩

section Layered

variable {sect key path name : String} {after : List (String × String)}

/-- The last variable that leads to a setting counts, whatever the file says. -/
theorem at?_layered (hpath : envPath? name = some path) (hself : isPathOf sect key path = true)
    (hafter : ∀ v ∈ after, ∀ p, envPath? v.1 = some p → leadsTo sect key p = false)
    (layer : Items) (before : List (String × String)) (s : String) :
    (layered layer (before ++ (name, s) :: after)).at? sect key =
      some (.scalar (Scalar.ofVariable s) (some .environment)) := by
  have hlayer : environmentLayer (before ++ (name, s) :: after) =
      environmentLayer before ++
        (path, .scalar (Scalar.ofVariable s) (some .environment)) :: environmentLayer after := by
    rw [environmentLayer, List.filterMap_append, List.filterMap_cons, hpath]
    rfl
  rw [layered, hlayer]
  apply Item.at?_layLayer hself
  intro m hm
  obtain ⟨v, hv, hvpath, hscalar⟩ := mem_environmentLayer hm
  exact ⟨hafter v hv _ hvpath, _, _, hscalar⟩

end Layered

/-- **What a setting that takes a text gets from its variable.** Whatever the file and the other
variables say, unless a variable that counts after it leads to the same place, the setting gets the
text of the value that the variable is taken for; this is the text of the variable exactly for
those that `Keeps` says. -/
theorem load_text (ht : t ∈ textSettings) {file : Option Bytes}
    {before after : List (String × String)} {name s : String} {c : Config}
    (hname : Text.lower name = Text.lower t.variable_)
    (hafter : ∀ v ∈ after, ∀ path, envPath? v.1 = some path → leadsTo t.sect t.key path = false)
    (hload : Config.load file (before ++ (name, s) :: after) = .ok c) :
    t.get c = some (shown s) ∧ (t.get c = some s ↔ Keeps s) := by
  obtain ⟨layer, hitem⟩ := ofItem_of_load hload
  obtain ⟨path, hpath, hself⟩ := envPath?_variable ht hname
  have hplace := at?_layered hpath hself hafter layer before s
  obtain ⟨values, rfl, hvalues⟩ := value_of_ofItem hitem
  obtain ⟨sect, hsect, f, hf, hsectName, hfieldName, hkind⟩ := exists_field t ht
  obtain ⟨called, hcalled⟩ := Kind.exists_text hkind
  obtain ⟨v, hconvert, hvalue⟩ := hvalues sect hsect f hf _ (by rw [hsectName, hfieldName, hplace])
  rw [convertField_ofVariable hcalled] at hconvert
  cases hconvert
  have hget : t.get (Config.ofTable values) = some (shown s) := by
    apply get_ofTable ht values
    rw [← hsectName, ← hfieldName, hvalue]
  refine ⟨hget, ?_⟩
  rw [hget, Option.some.injEq, shown_eq_self_iff]

theorem load_text_account : ∃ c,
    Config.load none ([("Path", "/bin")] ++
      ("STATUSER__TRANSPORT__ACCOUNT_NUMBER", "EBS-0012345") ::
        [("statuser__transport__topic", "jobs")]) = .ok c ∧
    c.transport.accountNumber = some (shown "EBS-0012345") ∧
    (c.transport.accountNumber = some "EBS-0012345" ↔ Keeps "EBS-0012345") ∧
    Keeps "EBS-0012345" := by
  have hloads : (Config.load none ([("Path", "/bin")] ++
      ("STATUSER__TRANSPORT__ACCOUNT_NUMBER", "EBS-0012345") ::
        [("statuser__transport__topic", "jobs")])).toOption.isSome = true := by
    decide +kernel
  have hother : (envPath? "statuser__transport__topic").all
      (fun path => leadsTo "transport" "account_number" path = false) = true := by
    decide +kernel
  have hafter : ∀ v ∈ [("statuser__transport__topic", "jobs")], ∀ path,
      envPath? v.1 = some path → leadsTo "transport" "account_number" path = false := by
    intro v hv path hpath
    obtain rfl := List.mem_singleton.1 hv
    rw [hpath] at hother
    exact of_decide_eq_true hother
  have hkeeps : Keeps "EBS-0012345" := by
    decide +kernel
  have hmem : (⟨"transport", "account_number", "STATUSER__TRANSPORT__ACCOUNT_NUMBER",
      fun c => c.transport.accountNumber⟩ : TextSetting) ∈ textSettings := by
    simp [textSettings]
  obtain ⟨c, hc⟩ := Option.isSome_iff_exists.1 hloads
  have hload := eq_ok_of_toOption hc
  obtain ⟨hshown, hkept⟩ := load_text hmem rfl hafter hload
  exact ⟨c, hload, hshown, hkept, hkeeps⟩

/-- An account number that begins with a zero does not come through. -/
theorem load_drops_zeros : ∃ c,
    Config.load none [("STATUSER__TRANSPORT__ACCOUNT_NUMBER", "0012345")] = .ok c ∧
      c.transport.accountNumber = some "12345" ∧
      c.transport.accountNumber ≠ some "0012345" := by
  have hnumber : (Config.load none
      [("STATUSER__TRANSPORT__ACCOUNT_NUMBER", "0012345")]).toOption.map
        (fun c => c.transport.accountNumber) = some (some "12345") := by
    decide +kernel
  obtain ⟨c, hc, haccount⟩ := Option.map_eq_some_iff.1 hnumber
  refine ⟨c, eq_ok_of_toOption hc, haccount, ?_⟩
  rw [haccount]
  decide

end Availability.Settings
