import Availability.Log.Event
import Availability.Text.Blank

/-!
# Log filters

A filter is a list of directives, separated by commas. A directive is a level, the name of a
part of the service, or both with an equals sign between them; a name covers every part whose name
begins with it. Of the directives that cover an event the one with the longest name decides, and
of two with the same name the later one.

* `decides_none_iff`: events that no directive covers are not told of.
-/

namespace Availability.Log

/-- A threshold for events, none of which are let through without one. -/
abbrev Threshold := Option Level

/-- A directive: which events it covers, and which of them it lets through. One that is bound to
a span of time covers nothing by itself. -/
structure Directive where
  part : Option String
  spanned : Bool
  threshold : Threshold
  deriving DecidableEq, Repr

namespace Threshold

/-- The thresholds by their numbers. -/
def ofNumber? : Nat → Option Threshold
  | 0 => some none
  | 1 => some (some .error)
  | 2 => some (some .warn)
  | 3 => some (some .info)
  | 4 => some (some .debug)
  | 5 => some (some .trace)
  | _ => none

/-- The thresholds by their names, in small letters. -/
def ofName? : String → Option Threshold
  | "off" => some none
  | "error" => some (some .error)
  | "warn" => some (some .warn)
  | "info" => some (some .info)
  | "debug" => some (some .debug)
  | "trace" => some (some .trace)
  | _ => none

/-- A number of digits alone, with a plus sign before it or not. -/
def number? (s : String) : Option Nat :=
  let digits := match s.toList with
    | '+' :: r => r
    | r => r
  if digits.isEmpty || !digits.all Char.isDigit then none
  else some (digits.foldl (fun n c => n * 10 + (c.toNat - 48)) 0)

/-- Reads a threshold, which is a number or a name. -/
def ofText? (s : String) : Option Threshold :=
  ((number? s).bind ofNumber?) <|> ofName? (s.map Char.toLower)

/-- Whether a threshold lets a level through. -/
def allows (t : Threshold) (l : Level) : Bool :=
  match t with
  | some least => least.allows l
  | none => false

end Threshold

namespace Directive

/-- Whether a directive may begin with a character. All beyond ASCII are taken for letters. -/
def startsWith (c : Char) : Bool :=
  c == '-' || c == ':' || c == '_' || c.isAlphanum || 128 ≤ c.toNat

/-- The directive of a text without an equals sign: a threshold for all events, or a name. -/
def plain (s : String) : Directive :=
  match Threshold.ofText? s with
  | some t => ⟨none, false, t⟩
  | none => ⟨some s, false, some .trace⟩

/-- Reads a directive. Blank characters in front of it become part of its name, so that one with
a threshold after the name is none. -/
def ofText? (s : String) : Option Directive :=
  let cs := s.toList.dropWhile Text.isBlank
  match cs with
  | [] => none
  | c :: _ =>
    if c == '[' then some ⟨none, true, some .trace⟩
    else if !startsWith c then none
    else
      let name := cs.takeWhile fun c => c != '=' && c != '['
      match cs.drop name.length with
      | [] => some (plain s)
      | '=' :: level =>
        if cs.length < s.length then none
        else if level.isEmpty then some ⟨some (String.ofList name), false, some .trace⟩
        else (Threshold.ofText? (String.ofList level)).map fun t =>
          ⟨some (String.ofList name), false, t⟩
      | _ => some ⟨some (String.ofList name), true, some .trace⟩

/-- Whether a directive covers what comes from a part of the service. -/
def covers (d : Directive) (origin : Origin) : Bool :=
  !d.spanned && (d.part.all fun name => name.isPrefixOf origin.name)

/-- How narrow a directive is. -/
def narrowness (d : Directive) : Nat :=
  match d.part with
  | some name => name.utf8ByteSize + 1
  | none => 0

end Directive

/-- Which events the log tells of. -/
abbrev Filter := List Directive

namespace Filter

/-- The directives of a text that are not empty. -/
def parts (s : String) : List String := (s.splitOn ",").filter (· != "")

/-- A filter with a directive for all if it would be empty. -/
def orErrors (f : Filter) : Filter :=
  if f.isEmpty then [⟨none, false, some .error⟩] else f

/-- Reads a filter that has to be right in every directive. -/
def ofText? (s : String) : Option Filter := ((parts s).mapM Directive.ofText?).map orErrors

/-- Reads a filter and leaves out what is no directive. -/
def ofTextLeniently (s : String) : Filter := orErrors ((parts s).filterMap Directive.ofText?)

/-- The narrower of two directives, the second of two that are as narrow. -/
def narrower (d e : Directive) : Directive := if e.narrowness < d.narrowness then d else e

/-- The directive that decides after one more. -/
def further (best : Option Directive) (d : Directive) : Option Directive :=
  some ((best.map (narrower · d)).getD d)

/-- The directive that decides on what comes from a part of the service, if one does. -/
def decides (f : Filter) (origin : Origin) : Option Directive :=
  (f.filter fun d => d.covers origin).foldl further none

theorem isSome_foldl_further (ds : List Directive) (b : Directive) :
    (ds.foldl further (some b)).isSome = true := by
  induction ds generalizing b with
  | nil => rfl
  | cons d ds ih => exact ih _

theorem decides_none_iff (f : Filter) (origin : Origin) :
    f.decides origin = none ↔ ∀ d ∈ f, d.covers origin = false := by
  unfold decides
  cases h : List.filter (fun d => d.covers origin) f with
  | nil =>
    rw [List.filter_eq_nil_iff] at h
    simpa using h
  | cons d ds =>
    have hd : d ∈ List.filter (fun d => d.covers origin) f := h ▸ List.mem_cons_self
    rw [List.mem_filter] at hd
    constructor
    · intro hn
      have hs := isSome_foldl_further ds d
      rw [List.foldl_cons, further, Option.map_none, Option.getD_none] at hn
      rw [hn] at hs
      cases hs
    · intro hf
      have := hf d hd.1
      rw [hd.2] at this
      cases this

/-- Whether the log tells of an event. -/
def passes (f : Filter) (e : Event) : Bool :=
  match f.decides e.entry.origin with
  | some d => d.threshold.allows e.entry.level
  | none => false

/-- The filter that holds: that of the environment if there is one and it is right, else that of
the settings. -/
def choose (environment : Option String) (setting : String) : Filter :=
  (environment.bind ofText?).getD (ofTextLeniently setting)

end Filter

end Availability.Log
