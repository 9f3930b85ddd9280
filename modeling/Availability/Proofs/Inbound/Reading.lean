import Availability.Proofs.Inbound.Stream
import Availability.Proofs.Text.Utf8

/-!
# What is read of a stream

A line is UTF-8 or not whether or not a carriage return stands at its end, and the return is blank.
So what the lines of a stream say can be told from the lines as they stand: the messages are the
texts of its lines without the blanks at their ends, as far as something is left of them, up to the
first line that is not UTF-8.

* `trimmed_dropReturn`: a carriage return at the end of a line changes nothing.
* `next_taken`: what one call reads, from any point of the stream.
* `stream_read`: what the calls read from the start of the stream to its end.
* `messages_of_texts`: texts written one to a line are read back.
-/

namespace Availability.Inbound

open Lines (all all_join_append join)

/-! ## A carriage return at the end of a line -/

theorem trimChars_snoc_blank (cs : List Char) {c : Char} (h : Text.isBlank c = true) :
    Text.trimChars (cs ++ [c]) = Text.trimChars cs := by
  unfold Text.trimChars
  by_cases hblank : cs.dropWhile Text.isBlank = []
  · rw [dropWhile_append_of_passes hblank, hblank, List.dropWhile_cons_of_pos h]
    rfl
  · rw [dropWhile_append_of_stops hblank, List.reverse_append, List.reverse_singleton,
      List.singleton_append, List.dropWhile_cons_of_pos h]

theorem trim_snoc_return (t : String) : Text.trim (t ++ "\r") = Text.trim t := by
  rw [Text.trim, String.toList_append, show "\r".toList = ['\r'] from rfl,
    trimChars_snoc_blank _ (by decide)]
  rfl

theorem encode_append (t u : String) : Utf8.encode (t ++ u) = Utf8.encode t ++ Utf8.encode u := by
  simp only [Utf8.encode, String.toList_append, List.flatMap_append]

theorem mem_of_append_eq_snoc {xs ys zs : Bytes} {b : UInt8} (h : xs ++ ys = zs ++ [b])
    (hys : ys ≠ []) : b ∈ ys := by
  have hlast := congrArg List.getLast? h
  rw [List.getLast?_append, List.getLast?_concat, List.getLast?_eq_some_getLast hys,
    Option.some_or, Option.some.injEq] at hlast
  exact hlast ▸ List.getLast_mem hys

/-- A carriage return at the end of some bytes is that of their text. -/
theorem eq_of_encode_eq_snoc_return {t : String} {s : Bytes} (h : Utf8.encode t = s ++ [13]) :
    ∃ u, t = u ++ "\r" ∧ s = Utf8.encode u := by
  rcases List.eq_nil_or_concat t.toList with hnil | ⟨cs, c, hcs⟩
  · rw [Utf8.encode, hnil] at h
    cases s <;> cases h
  · rw [List.concat_eq_append] at hcs
    rw [Utf8.encode, hcs, List.flatMap_append, List.flatMap_singleton] at h
    have hc : c = '\r' := Char.toNat_inj.1 (Utf8.toNat_of_mem_encodeChar (mem_of_append_eq_snoc h
      (Utf8.encodeChar_ne_nil c)) (by decide))
    subst hc
    refine ⟨String.ofList cs, ?_, ?_⟩
    · rw [← String.toList_inj, hcs, String.toList_append, String.toList_ofList]
      rfl
    · rw [Utf8.encode, String.toList_ofList]
      exact (List.append_cancel_right h).symm

/-- The text of a line without the blanks at its ends, if the line is UTF-8. -/
def trimmed? (line : Bytes) : Option String := (Utf8.decode? line).map Text.trim

theorem trimmed?_encode (t : String) : trimmed? (Utf8.encode t) = some (Text.trim t) := by
  rw [trimmed?, Utf8.decode?_eq_some_iff.2 rfl]
  rfl

theorem trimmed?_snoc_return (s : Bytes) : trimmed? (s ++ [13]) = trimmed? s := by
  cases hs : Utf8.decode? s with
  | some t =>
    obtain rfl := Utf8.decode?_eq_some_iff.1 hs
    have hreturn : Utf8.encode t ++ [13] = Utf8.encode (t ++ "\r") := by rw [encode_append]; rfl
    rw [hreturn, trimmed?_encode, trimmed?_encode, trim_snoc_return]
  | none =>
    have hnone : Utf8.decode? (s ++ [13]) = none := by
      rw [Option.eq_none_iff_forall_ne_some]
      intro t ht
      obtain ⟨u, -, rfl⟩ := eq_of_encode_eq_snoc_return (Utf8.decode?_eq_some_iff.1 ht).symm
      rw [Utf8.decode?_eq_some_iff.2 rfl] at hs
      cases hs
    rw [trimmed?, trimmed?, hs, hnone]

theorem trimmed_dropReturn (line : Bytes) : trimmed? (dropReturn line) = trimmed? line := by
  rw [dropReturn]
  split
  · next h =>
    obtain ⟨s, rfl⟩ := List.getLast?_eq_some_iff.1 h
    rw [List.dropLast_concat]
    exact (trimmed?_snoc_return s).symm
  · rfl

/-! ## What a line says -/

/-- Whether a line is UTF-8. -/
def isUtf8 (line : Bytes) : Bool := (Utf8.decode? line).isSome

/-- Whether a line is UTF-8 and has nothing but blanks. -/
def IsBlank (line : Bytes) : Prop := trimmed? line = some ""

/-- The message of a line that is UTF-8 and has more than blanks. -/
def lineMessage? (identity : Principal) (line : Bytes) : Option InboundMessage :=
  (trimmed? line).bind fun t => if t = "" then none else some ⟨Utf8.encode t, identity⟩

/-- The fault at which the stream breaks off at a line. -/
def lineFault? (line : Bytes) : Option StreamFault :=
  match Utf8.decode (dropReturn line) with
  | .error fault => some (.notUtf8 fault)
  | .ok _ => none

theorem isUtf8_iff {line : Bytes} : isUtf8 line = true ↔ ∃ t, line = Utf8.encode t := by
  simp only [isUtf8, Option.isSome_iff_exists, Utf8.decode?_eq_some_iff]

theorem isUtf8_eq_isSome_trimmed (line : Bytes) : isUtf8 line = (trimmed? line).isSome := by
  rw [isUtf8, trimmed?, Option.isSome_map]

variable {identity : Principal} {line : Bytes}

theorem says_of_decode_ok {text : String} (h : Utf8.decode (dropReturn line) = .ok text) :
    isUtf8 line = true ∧ trimmed? line = some (Text.trim text) ∧ lineFault? line = none := by
  have htrimmed : trimmed? line = some (Text.trim text) := by
    rw [← trimmed_dropReturn, trimmed?, Utf8.decode?, h]
    rfl
  refine ⟨?_, htrimmed, ?_⟩
  · rw [isUtf8_eq_isSome_trimmed, htrimmed]
    rfl
  · rw [lineFault?, h]

theorem says_of_decode_error {fault : Utf8.Fault}
    (h : Utf8.decode (dropReturn line) = .error fault) :
    isUtf8 line = false ∧ lineFault? line = some (.notUtf8 fault) := by
  refine ⟨?_, by rw [lineFault?, h]⟩
  rw [isUtf8_eq_isSome_trimmed, ← trimmed_dropReturn, trimmed?, Utf8.decode?, h]
  rfl

/-- The stream breaks off at the lines that are not UTF-8, and at no others. -/
theorem lineFault?_eq_none_iff : lineFault? line = none ↔ isUtf8 line = true := by
  cases h : Utf8.decode (dropReturn line) with
  | error fault =>
    obtain ⟨hutf8, hfault⟩ := says_of_decode_error h
    simp [hutf8, hfault]
  | ok text =>
    obtain ⟨hutf8, -, hfault⟩ := says_of_decode_ok h
    simp [hutf8, hfault]

theorem lineMessage?_of_blank (h : IsBlank line) : lineMessage? identity line = none := by
  rw [lineMessage?, h]
  rfl

theorem IsBlank.isUtf8 (h : IsBlank line) : isUtf8 line = true := by
  rw [isUtf8_eq_isSome_trimmed, h]
  rfl

theorem lineMessage?_of_trimmed {t : String} (h : trimmed? line = some t) (ht : t ≠ "") :
    lineMessage? identity line = some ⟨Utf8.encode t, identity⟩ := by
  rw [lineMessage?, h]
  exact if_neg ht

/-! ## One call -/

/-- What a call may give, from the point of a stream at which `chunks` are left. -/
inductive Taken (identity : Principal) (chunks : List Bytes) :
    Except StreamFault (Option (InboundMessage × List Bytes)) → Prop
  | ended (hblank : ∀ l ∈ all chunks.flatten, IsBlank l) : Taken identity chunks (.ok none)
  | message {before : List Bytes} {line : Bytes} {m : InboundMessage} {rest : List Bytes}
      (hlines : all chunks.flatten = before ++ line :: all rest.flatten)
      (hblank : ∀ l ∈ before, IsBlank l) (hm : lineMessage? identity line = some m) :
      Taken identity chunks (.ok (some (m, rest)))
  | broken {before after : List Bytes} {line : Bytes} {fault : Utf8.Fault}
      (hlines : all chunks.flatten = before ++ line :: after)
      (hblank : ∀ l ∈ before, IsBlank l) (hline : isUtf8 line = false) :
      Taken identity chunks (.error (.notUtf8 fault))

/-- Blank lines are skipped. -/
theorem Taken.skip {chunks rest : List Bytes}
    {x : Except StreamFault (Option (InboundMessage × List Bytes))}
    (hlines : all chunks.flatten = line :: all rest.flatten) (hline : IsBlank line)
    (h : Taken identity rest x) : Taken identity chunks x := by
  cases h with
  | ended hblank =>
    refine .ended fun l hl => ?_
    rw [hlines] at hl
    rcases List.mem_cons.1 hl with rfl | hl
    · exact hline
    · exact hblank l hl
  | message hrest hblank hm =>
    rw [hrest, ← List.cons_append] at hlines
    exact .message hlines (List.forall_mem_cons.2 ⟨hline, hblank⟩) hm
  | broken hrest hblank hbad =>
    rw [hrest, ← List.cons_append] at hlines
    exact .broken hlines (List.forall_mem_cons.2 ⟨hline, hblank⟩) hbad

theorem all_of_takeLine_some {chunks rest : List Bytes}
    (h : takeLine [] chunks = some (line, rest)) :
    all chunks.flatten = line :: all rest.flatten := by
  rcases takeLine_eq chunks with ⟨-, hnone⟩ | ⟨line', rest', hall, hsome⟩
  · cases h.symm.trans hnone
  · cases h.symm.trans hsome
    exact hall

theorem all_of_takeLine_none {chunks : List Bytes} (h : takeLine [] chunks = none) :
    all chunks.flatten = [] := by
  rcases takeLine_eq chunks with ⟨hall, -⟩ | ⟨line, rest, -, hsome⟩
  · exact hall
  · cases h.symm.trans hsome

theorem next_taken (identity : Principal) (chunks : List Bytes) :
    Taken identity chunks (next identity chunks) := by
  fun_induction next identity chunks with
  | case1 chunks hnone =>
    refine .ended fun l hl => ?_
    rw [all_of_takeLine_none hnone] at hl
    cases hl
  | case2 chunks line rest htake fault hdecode =>
    have hlines : all chunks.flatten = [] ++ line :: all rest.flatten := all_of_takeLine_some htake
    exact .broken hlines (List.forall_mem_nil _) (says_of_decode_error hdecode).1
  | case3 chunks line rest htake text hdecode trimmed hempty _ ih =>
    have hblank : IsBlank line := by
      rw [IsBlank, (says_of_decode_ok hdecode).2.1, ← String.isEmpty_iff.1 hempty]
    exact ih.skip (all_of_takeLine_some htake) hblank
  | case4 chunks line rest htake text hdecode trimmed hempty =>
    have hlines : all chunks.flatten = [] ++ line :: all rest.flatten := all_of_takeLine_some htake
    have htext : Text.trim text ≠ "" := fun ht => hempty (String.isEmpty_iff.2 ht)
    exact .message hlines (List.forall_mem_nil _)
      (lineMessage?_of_trimmed (says_of_decode_ok hdecode).2.1 htext)

/-! ## All calls -/

/-- Where the stream is left after the messages `ms`. -/
inductive Reaches (identity : Principal) (chunks : List Bytes) :
    List InboundMessage → List Bytes → Prop
  | start : Reaches identity chunks [] chunks
  | next {ms : List InboundMessage} {m : InboundMessage} {rest rest' : List Bytes}
      (before : Reaches identity chunks ms rest)
      (h : Inbound.next identity rest = .ok (some (m, rest'))) :
      Reaches identity chunks (ms ++ [m]) rest'

theorem filterMap_of_blank {lines : List Bytes} (h : ∀ l ∈ lines, IsBlank l) :
    lines.filterMap (lineMessage? identity) = [] :=
  List.filterMap_eq_nil_iff.2 fun l hl => lineMessage?_of_blank (h l hl)

theorem isUtf8_of_lineMessage? {m : InboundMessage} (h : lineMessage? identity line = some m) :
    isUtf8 line = true := by
  rw [isUtf8_eq_isSome_trimmed]
  cases htrimmed : trimmed? line with
  | none => rw [lineMessage?, htrimmed] at h; cases h
  | some t => rfl

/-- What has been read are the messages of the lines that are no longer left. -/
theorem Reaches.messages {chunks rest : List Bytes} {ms : List InboundMessage}
    (h : Reaches identity chunks ms rest) :
    ∃ lines, all chunks.flatten = lines ++ all rest.flatten ∧ (∀ l ∈ lines, isUtf8 l = true) ∧
      ms = lines.filterMap (lineMessage? identity) := by
  induction h with
  | start => exact ⟨[], rfl, List.forall_mem_nil _, rfl⟩
  | @next ms m rest rest' _ h ih =>
    obtain ⟨lines, hall, hutf8, rfl⟩ := ih
    have htaken := next_taken identity rest
    rw [h] at htaken
    cases htaken with
    | @message before line _ _ hlines hblank hm =>
      refine ⟨lines ++ (before ++ [line]), by rw [hall, hlines]; simp, ?_, ?_⟩
      · intro l hl
        simp only [List.mem_append, List.mem_singleton] at hl
        rcases hl with hl | hl | rfl
        · exact hutf8 l hl
        · exact (hblank l hl).isUtf8
        · exact isUtf8_of_lineMessage? hm
      · rw [List.filterMap_append, List.filterMap_append, filterMap_of_blank hblank,
          List.filterMap_cons, hm]
        rfl

theorem next_eq_none_iff {chunks : List Bytes} :
    next identity chunks = .ok none ↔ ∀ l ∈ all chunks.flatten, IsBlank l := by
  have htaken := next_taken identity chunks
  constructor
  · intro h
    rw [h] at htaken
    cases htaken with
    | ended hblank => exact hblank
  · intro hblank
    generalize next identity chunks = x at htaken
    cases htaken with
    | ended => rfl
    | @message before line m rest hlines _ hm =>
      have hline : IsBlank line := hblank line (by rw [hlines]; simp)
      rw [lineMessage?_of_blank hline] at hm
      cases hm
    | @broken before after line fault hlines _ hline =>
      have hblankLine : IsBlank line := hblank line (by rw [hlines]; simp)
      rw [hblankLine.isUtf8] at hline
      cases hline

/-! ## The whole stream -/

theorem lineMessages_eq (identity : Principal) (lines : List Bytes) :
    lineMessages identity lines =
      ((lines.takeWhile isUtf8).filterMap (lineMessage? identity), lines.findSome? lineFault?) := by
  induction lines with
  | nil => rfl
  | cons line lines ih =>
    rw [lineMessages]
    cases h : Utf8.decode (dropReturn line) with
    | error fault =>
      obtain ⟨hutf8, hfault⟩ := says_of_decode_error h
      rw [List.takeWhile_cons_of_neg (by simp [hutf8]), List.findSome?_cons, hfault]
      rfl
    | ok text =>
      obtain ⟨hutf8, htrimmed, hfault⟩ := says_of_decode_ok h
      rw [List.takeWhile_cons_of_pos hutf8, List.findSome?_cons, hfault]
      simp only [String.isEmpty_iff, ih]
      split
      · next hblank =>
        rw [hblank] at htrimmed
        rw [List.filterMap_cons, lineMessage?_of_blank htrimmed]
      · next ht =>
        rw [List.filterMap_cons, lineMessage?_of_trimmed htrimmed ht]

/-! ## Texts written one to a line -/

theorem newline_notMem_encode {t : String} (h : '\n' ∉ t.toList) : 10 ∉ Utf8.encode t := by
  intro hmem
  obtain ⟨c, hc, hbyte⟩ := List.mem_flatMap.1 hmem
  have hnewline : c = '\n' := Char.toNat_inj.1 (Utf8.toNat_of_mem_encodeChar hbyte (by decide))
  exact h (hnewline ▸ hc)

theorem filterMap_encode {ls : List String} (h : ∀ l ∈ ls, Text.trim l = "" ∨ Text.trim l = l) :
    (ls.map Utf8.encode).filterMap (lineMessage? identity) =
      (ls.filter (Text.trim · ≠ "")).map fun t => ⟨Utf8.encode t, identity⟩ := by
  induction ls with
  | nil => rfl
  | cons l ls ih =>
    have hls := ih fun k hk => h k (List.mem_cons_of_mem _ hk)
    rw [List.map_cons, List.filterMap_cons]
    by_cases hblank : Text.trim l = ""
    · rw [lineMessage?_of_blank (by rw [IsBlank, trimmed?_encode, hblank]), hls,
        List.filter_cons_of_neg (by simp [hblank])]
    · have htrim : Text.trim l = l := (h l List.mem_cons_self).resolve_left hblank
      rw [lineMessage?_of_trimmed (trimmed?_encode l) hblank, hls, htrim,
        List.filter_cons_of_pos (by simp [hblank]), List.map_cons]

/-- Texts that are written one to a line, with blank lines among them, are read back. -/
theorem messages_of_texts {chunks : List Bytes} {ls : List String}
    (hlines : ∀ l ∈ ls, '\n' ∉ l.toList) (htrim : ∀ l ∈ ls, Text.trim l = "" ∨ Text.trim l = l)
    (hbytes : chunks.flatten = join (ls.map Utf8.encode)) :
    messages identity chunks =
      ((ls.filter (Text.trim · ≠ "")).map fun t => ⟨Utf8.encode t, identity⟩, none) := by
  have hnone : ∀ l ∈ ls.map Utf8.encode, 10 ∉ l := by
    intro l hl
    obtain ⟨t, ht, rfl⟩ := List.mem_map.1 hl
    exact newline_notMem_encode (hlines t ht)
  have hutf8 : ∀ l ∈ ls.map Utf8.encode, isUtf8 l = true := by
    intro l hl
    obtain ⟨t, -, rfl⟩ := List.mem_map.1 hl
    exact isUtf8_iff.2 ⟨t, rfl⟩
  have hall : all chunks.flatten = ls.map Utf8.encode := by
    have happend := all_join_append hnone []
    rw [List.append_nil] at happend
    rw [hbytes, happend]
    exact List.append_nil _
  rw [messages_eq, hall, lineMessages_eq, takeWhile_eq_self (dropWhile_eq_nil hutf8),
    filterMap_encode htrim, List.findSome?_eq_none_iff.2 fun l hl =>
      lineFault?_eq_none_iff.2 (hutf8 l hl)]

/-! ## What is read, and when -/

/-- What is read of a stream that arrives in the chunks given. -/
structure WellRead (identity : Principal) (chunks : List Bytes) : Prop where
  /-- The messages are those of the lines, in order, up to the first line that is not UTF-8. -/
  whole : messages identity chunks =
    (((all chunks.flatten).takeWhile isUtf8).filterMap (lineMessage? identity),
      (all chunks.flatten).findSome? lineFault?)
  /-- The stream comes to its end if there is no such line. -/
  unbroken : (messages identity chunks).2 = none ↔
    ∀ l ∈ all chunks.flatten, ∃ t, l = Utf8.encode t
  /-- At every point what has been read are the messages of the lines that are no longer left, and
  the next call takes what the lines left have first. -/
  calls : ∀ ms rest, Reaches identity chunks ms rest →
    (∃ lines, all chunks.flatten = lines ++ all rest.flatten ∧ (∀ l ∈ lines, isUtf8 l = true) ∧
      ms = lines.filterMap (lineMessage? identity)) ∧
    Taken identity rest (next identity rest)
  /-- The end is told when only blank lines are left, if any. -/
  ended : ∀ ms rest, Reaches identity chunks ms rest →
    (next identity rest = .ok none ↔ ∀ l ∈ all rest.flatten, IsBlank l)
  /-- Texts that are written one to a line, with blank lines among them, are read back. -/
  readBack : ∀ ls : List String, (∀ l ∈ ls, '\n' ∉ l.toList) →
    (∀ l ∈ ls, Text.trim l = "" ∨ Text.trim l = l) →
    chunks.flatten = join (ls.map Utf8.encode) →
    messages identity chunks =
      ((ls.filter (Text.trim · ≠ "")).map fun t => ⟨Utf8.encode t, identity⟩, none)

/-- **What is read of a stream** depends on its bytes alone, however they are cut into chunks: the
texts of its lines without the blanks at their ends, as far as something is left of them, up to the
first line that is not UTF-8 or to the end. -/
theorem stream_read (identity : Principal) (chunks : List Bytes) : WellRead identity chunks := by
  have hwhole : messages identity chunks =
      (((all chunks.flatten).takeWhile isUtf8).filterMap (lineMessage? identity),
        (all chunks.flatten).findSome? lineFault?) := by
    rw [messages_eq, lineMessages_eq]
  constructor
  case whole => exact hwhole
  case unbroken =>
    rw [hwhole, List.findSome?_eq_none_iff]
    simp only [lineFault?_eq_none_iff, isUtf8_iff]
  case calls => exact fun ms rest hreaches => ⟨hreaches.messages, next_taken identity rest⟩
  case ended => exact fun ms rest _ => next_eq_none_iff
  case readBack => exact fun ls hlines htrim hbytes => messages_of_texts hlines htrim hbytes

/-- A character cut in two, a carriage return cut off its line feed, a line of a blank that is no
ASCII, and a last line that has not ended. -/
theorem stream_read_cut :
    messages ⟨"1", none⟩ [[0xC3], [0xA9, 13], [10, 0xC2], [0xA0, 10, 0x78]] =
        ([⟨[0xC3, 0xA9], ⟨"1", none⟩⟩, ⟨[0x78], ⟨"1", none⟩⟩], none) ∧
      messages ⟨"1", none⟩ [[0xC3], [0xA9, 10, 32], [10], [0x78, 10]] =
        ([⟨Utf8.encode "é", ⟨"1", none⟩⟩, ⟨Utf8.encode "x", ⟨"1", none⟩⟩], none) := by
  constructor
  · rw [(stream_read _ _).whole]
    with_unfolding_all rfl
  · rw [(stream_read _ _).readBack ["é", " ", "x"] (by decide) (by decide) (by decide)]
    rfl

end Availability.Inbound
