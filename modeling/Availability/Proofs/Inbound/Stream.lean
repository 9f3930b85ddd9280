import Availability.Inbound.Request
import Availability.Inbound.Stream
import Availability.Proofs.Sequences
import Availability.Proofs.Text.Lines

/-!
# What comes of an inbound stream

The messages of a stream depend on its bytes alone, not on the chunks in which they arrive: they
are those of its lines, up to the first line that is not UTF-8. A line that makes no request leaves
no trace in the requests around it, unless it is that first line.

* `takeLine_eq`: the first line and the others, of whatever chunks.
* `messages_eq`, `requests_eq`: messages and requests by lines.
* `requests_with_line_iff`: when a line that makes no request affects only itself.
-/

namespace Availability.Inbound

open Lines (all all_cons all_of_notMem all_join_append join)

/-! ## Lines of chunks -/

theorem ne_lineFeed_of_notMem {s : Bytes} (h : 10 ∉ s) : ∀ b ∈ s, (b != lineFeed) = true := by
  intro b hb
  rw [bne_iff_ne]
  rintro rfl
  exact h hb

theorem dropWhile_of_notMem {s : Bytes} (h : 10 ∉ s) : s.dropWhile (· != lineFeed) = [] :=
  dropWhile_eq_nil (ne_lineFeed_of_notMem h)

/-- The next line ends within the chunks. -/
theorem takeLine_of_append {chunks : List Bytes} {line after : Bytes} (hline : 10 ∉ line)
    (h : chunks.flatten = line ++ 10 :: after) (held : Bytes) :
    ∃ rest, takeLine held chunks = some (held ++ line, rest) ∧ rest.flatten = after := by
  induction chunks generalizing line held with
  | nil => cases line <;> cases h
  | cons c cs ih =>
    rw [takeLine]
    rw [List.flatten_cons, List.append_eq_append_iff] at h
    rcases h with ⟨line', rfl, hcs⟩ | ⟨c', rfl, hafter⟩
    · -- the chunk ends before the line does
      obtain ⟨hc, hline'⟩ : 10 ∉ c ∧ 10 ∉ line' := by simpa using hline
      simp only [dropWhile_of_notMem hc]
      rw [← List.append_assoc]
      exact ih hline' hcs (held ++ c)
    · cases c' with
      | nil =>
        rw [List.append_nil]
        simp only [dropWhile_of_notMem hline]
        have hrest := ih List.not_mem_nil hafter.symm (held ++ line)
        rwa [List.append_nil] at hrest
      | cons b c' =>
        obtain ⟨rfl, rfl⟩ := List.cons.inj hafter
        have hdrop : (line ++ 10 :: c').dropWhile (· != lineFeed) = 10 :: c' := by
          rw [List.dropWhile_append_of_pos (ne_lineFeed_of_notMem hline)]
          rfl
        have htake : (line ++ 10 :: c').takeWhile (· != lineFeed) = line := by
          rw [List.takeWhile_append_of_pos (ne_lineFeed_of_notMem hline)]
          simp [lineFeed]
        simp only [hdrop, htake]
        exact ⟨c' :: cs, rfl, rfl⟩

/-- No line ends within the chunks. -/
theorem takeLine_of_notMem {chunks : List Bytes} (h : 10 ∉ chunks.flatten) (held : Bytes) :
    takeLine held chunks =
      if held ++ chunks.flatten = [] then none else some (held ++ chunks.flatten, []) := by
  induction chunks generalizing held with
  | nil => simp [takeLine]
  | cons c cs ih =>
    obtain ⟨hc, hcs⟩ : 10 ∉ c ∧ 10 ∉ cs.flatten := by simpa using h
    rw [takeLine]
    simp only [dropWhile_of_notMem hc]
    rw [ih hcs, List.flatten_cons, List.append_assoc]

/-- The first line of some chunks, and the chunks that hold the others. -/
theorem takeLine_eq (chunks : List Bytes) :
    (all chunks.flatten = [] ∧ takeLine [] chunks = none) ∨
    ∃ line rest, all chunks.flatten = line :: all rest.flatten ∧
      takeLine [] chunks = some (line, rest) := by
  by_cases h : 10 ∈ chunks.flatten
  · obtain ⟨line, after, hsplit, hline⟩ := List.eq_append_cons_of_mem h
    obtain ⟨rest, htake, rfl⟩ := takeLine_of_append hline hsplit []
    exact .inr ⟨line, rest, by rw [hsplit, all_cons hline], htake⟩
  · rw [takeLine_of_notMem h, all_of_notMem h, List.nil_append]
    by_cases hempty : chunks.flatten = []
    · exact .inl ⟨if_pos hempty, if_pos hempty⟩
    · exact .inr ⟨chunks.flatten, [], if_neg hempty, if_neg hempty⟩

/-! ## Messages of lines -/

/-- The messages of lines, up to the first that is not UTF-8. -/
def lineMessages (identity : Principal) : List Bytes → List InboundMessage × Option StreamFault
  | [] => ([], none)
  | line :: lines =>
    match Utf8.decode (dropReturn line) with
    | .error fault => ([], some (.notUtf8 fault))
    | .ok text =>
      if (Text.trim text).isEmpty then lineMessages identity lines
      else
        let (ms, fault) := lineMessages identity lines
        (⟨Utf8.encode (Text.trim text), identity⟩ :: ms, fault)

variable (identity : Principal)

theorem next_of_none {chunks : List Bytes} (h : takeLine [] chunks = none) :
    next identity chunks = .ok none := by
  rw [next]
  split
  · rfl
  · next h' => rw [h] at h'; cases h'

theorem next_of_some {chunks rest : List Bytes} {line : Bytes}
    (h : takeLine [] chunks = some (line, rest)) :
    next identity chunks =
      match Utf8.decode (dropReturn line) with
      | .error fault => .error (.notUtf8 fault)
      | .ok text =>
        if (Text.trim text).isEmpty then next identity rest
        else .ok (some (⟨Utf8.encode (Text.trim text), identity⟩, rest)) := by
  rw [next]
  split
  · next h' => rw [h] at h'; cases h'
  · next line' rest' h' =>
    rw [h] at h'
    cases h'
    rfl

theorem messages_of_error {chunks : List Bytes} {fault : StreamFault}
    (h : next identity chunks = .error fault) : messages identity chunks = ([], some fault) := by
  rw [messages]
  split
  · next h' => rw [h] at h'; cases h'; rfl
  · next h' => rw [h] at h'; cases h'
  · next h' => rw [h] at h'; cases h'

theorem messages_of_none {chunks : List Bytes} (h : next identity chunks = .ok none) :
    messages identity chunks = ([], none) := by
  rw [messages]
  split
  · next h' => rw [h] at h'; cases h'
  · rfl
  · next h' => rw [h] at h'; cases h'

theorem messages_of_some {chunks rest : List Bytes} {m : InboundMessage}
    (h : next identity chunks = .ok (some (m, rest))) :
    messages identity chunks =
      (m :: (messages identity rest).1, (messages identity rest).2) := by
  rw [messages]
  split
  · next h' => rw [h] at h'; cases h'
  · next h' => rw [h] at h'; cases h'
  · next h' => rw [h] at h'; cases h'; rfl

theorem messages_congr {chunks chunks' : List Bytes}
    (h : next identity chunks = next identity chunks') :
    messages identity chunks = messages identity chunks' := by
  cases hnext : next identity chunks' with
  | error fault =>
    rw [messages_of_error identity hnext, messages_of_error identity (h.trans hnext)]
  | ok found =>
    cases found with
    | none => rw [messages_of_none identity hnext, messages_of_none identity (h.trans hnext)]
    | some p => rw [messages_of_some identity hnext, messages_of_some identity (h.trans hnext)]

/-- The messages of a stream are those of its lines. -/
theorem messages_eq (chunks : List Bytes) :
    messages identity chunks = lineMessages identity (all chunks.flatten) := by
  induction hlines : all chunks.flatten generalizing chunks with
  | nil =>
    rcases takeLine_eq chunks with ⟨-, hnone⟩ | ⟨line, rest, hall, -⟩
    · exact messages_of_none identity (next_of_none identity hnone)
    · cases hlines.symm.trans hall
  | cons line lines ih =>
    rcases takeLine_eq chunks with ⟨hall, -⟩ | ⟨line', rest, hall, hsome⟩
    · cases hall.symm.trans hlines
    · obtain ⟨rfl, rfl⟩ := List.cons.inj (hall.symm.trans hlines)
      have hnext := next_of_some identity hsome
      rw [lineMessages]
      cases hdecode : Utf8.decode (dropReturn line') with
      | error fault =>
        rw [hdecode] at hnext
        exact messages_of_error identity hnext
      | ok text =>
        simp only [hdecode] at hnext ⊢
        split at hnext
        · next hblank =>
          rw [if_pos hblank, messages_congr identity hnext]
          exact ih rest rfl
        · next hblank =>
          rw [if_neg hblank, messages_of_some identity hnext, ih rest rfl]

/-! ## Requests of lines -/

/-- The request that a message is, if it is one. -/
def request? (m : InboundMessage) : Option SourceRequest :=
  (SourceRequest.decode m.payload).toOption

/-- The requests of a stream, in order: those of its messages that are requests. -/
def requests (chunks : List Bytes) : List SourceRequest :=
  (messages identity chunks).1.filterMap request?

/-- Whether a line is UTF-8. -/
def isText (line : Bytes) : Bool := (Utf8.decode? (dropReturn line)).isSome

/-- The request that a line makes, if it makes one. -/
def lineRequest? (line : Bytes) : Option SourceRequest :=
  (Utf8.decode? (dropReturn line)).bind fun text =>
    if (Text.trim text).isEmpty then none
    else (SourceRequest.decode (Utf8.encode (Text.trim text))).toOption

theorem filterMap_lineMessages (lines : List Bytes) :
    (lineMessages identity lines).1.filterMap request? =
      (lines.takeWhile isText).filterMap lineRequest? := by
  induction lines with
  | nil => rfl
  | cons line lines ih =>
    rw [lineMessages]
    cases hdecode : Utf8.decode (dropReturn line) with
    | error fault =>
      have htext : isText line = false := by
        rw [isText, Utf8.decode?, hdecode]
        rfl
      simp [htext]
    | ok text =>
      have htext : isText line = true := by
        rw [isText, Utf8.decode?, hdecode]
        rfl
      have hrequest : lineRequest? line =
          if (Text.trim text).isEmpty then none
          else (SourceRequest.decode (Utf8.encode (Text.trim text))).toOption := by
        rw [lineRequest?, Utf8.decode?, hdecode]
        rfl
      rw [List.takeWhile_cons_of_pos htext, List.filterMap_cons, hrequest, ← ih]
      by_cases hblank : (Text.trim text).isEmpty = true
      · simp only [hblank, if_true]
      · simp only [hblank, if_false, List.filterMap_cons, Bool.false_eq_true, request?]

/-- The requests of a stream are those of its lines up to the first that is not UTF-8. -/
theorem requests_eq (chunks : List Bytes) :
    requests identity chunks =
      ((all chunks.flatten).takeWhile isText).filterMap lineRequest? := by
  rw [requests, messages_eq, filterMap_lineMessages]

/-! ## A line among others -/

/-- What a line does to the requests of the lines around it. -/
theorem filterMap_with_line_iff {x : Bytes} (hx : lineRequest? x = none)
    (before after : List Bytes) :
    ((before ++ x :: after).takeWhile isText).filterMap lineRequest? =
        ((before ++ after).takeWhile isText).filterMap lineRequest? ↔
      isText x = true ∨ (∃ l ∈ before, isText l = false) ∨
        (after.takeWhile isText).filterMap lineRequest? = [] := by
  by_cases hbefore : ∃ l ∈ before, isText l = false
  · -- the stream has broken off before the line
    obtain ⟨l, hl, hfalse⟩ := hbefore
    have hstops := dropWhile_ne_nil hl hfalse
    rw [takeWhile_append_of_stops hstops, takeWhile_append_of_stops hstops]
    exact ⟨fun _ => .inr (.inl ⟨l, hl, hfalse⟩), fun _ => rfl⟩
  · have hall : ∀ l ∈ before, isText l = true := by
      intro l hl
      cases htext : isText l with
      | true => rfl
      | false => exact absurd ⟨l, hl, htext⟩ hbefore
    have hpasses := dropWhile_eq_nil hall
    rw [takeWhile_append_of_passes hpasses, takeWhile_append_of_passes hpasses,
      List.filterMap_append, List.filterMap_append, List.append_cancel_left_eq]
    cases htext : isText x with
    | true =>
      rw [List.takeWhile_cons_of_pos htext, List.filterMap_cons, hx]
      exact ⟨fun _ => .inl rfl, fun _ => rfl⟩
    | false =>
      rw [List.takeWhile_cons_of_neg (by simp [htext]), List.filterMap_nil]
      constructor
      · intro h
        exact .inr (.inr h.symm)
      · rintro (h | h | h)
        · cases h
        · exact absurd h hbefore
        · exact h.symm

theorem lineRequest?_of_requests {x : Bytes} (hx : 10 ∉ x)
    (h : requests identity [x ++ [10]] = []) : lineRequest? x = none := by
  rw [requests_eq, List.flatten_singleton, all_cons hx] at h
  cases hdecode : Utf8.decode? (dropReturn x) with
  | none =>
    rw [lineRequest?, hdecode]
    rfl
  | some text =>
    have htext : isText x = true := by
      rw [isText, hdecode]
      rfl
    rw [List.takeWhile_cons_of_pos htext, List.filterMap_cons] at h
    cases hrequest : lineRequest? x with
    | none => rfl
    | some request => rw [hrequest] at h; cases h

/-- **A line that makes no request**, whatever its bytes, affects only itself exactly when it is
UTF-8, or the stream has broken off before it, or nothing after it makes a request. However the
bytes are cut into chunks, the requests are then the same with the line and without it; otherwise
the stream breaks off at the line, and every request after it is lost. -/
theorem requests_with_line_iff {chunks chunks' : List Bytes} {before : List Bytes} {x rest : Bytes}
    (hbefore : ∀ l ∈ before, 10 ∉ l) (hx : 10 ∉ x)
    (hnone : requests identity [x ++ [10]] = [])
    (hwith : chunks.flatten = join before ++ (x ++ 10 :: rest))
    (hwithout : chunks'.flatten = join before ++ rest) :
    requests identity chunks = requests identity chunks' ↔
      isText x = true ∨ (∃ l ∈ before, isText l = false) ∨ requests identity [rest] = [] := by
  have hrest : requests identity [rest] = ((all rest).takeWhile isText).filterMap lineRequest? := by
    rw [requests_eq, List.flatten_singleton]
  rw [requests_eq, requests_eq, hwith, hwithout, all_join_append hbefore,
    all_join_append hbefore, all_cons hx, hrest]
  exact filterMap_with_line_iff (lineRequest?_of_requests identity hx hnone) before (all rest)

/-- A line that asks for the source `1`. -/
def sampleLine : Bytes :=
  [123, 34, 115, 111, 117, 114, 99, 101, 95, 105, 100, 34, 58, 34, 49, 34, 125]

theorem requests_sampleLine :
    requests ⟨"7", none⟩ [sampleLine ++ [10]] = [⟨"1"⟩] := by
  have hline : 10 ∉ sampleLine := by decide
  rw [requests_eq, List.flatten_singleton, all_cons hline]
  with_unfolding_all rfl

theorem requests_of_not_text {x : Bytes} (hx : 10 ∉ x) (htext : isText x = false) (rest : Bytes) :
    requests identity [x ++ 10 :: rest] = [] := by
  rw [requests_eq, List.flatten_singleton, all_cons hx,
    List.takeWhile_cons_of_neg (by simp [htext])]
  rfl

theorem isText_ff : isText [0xff] = false := by
  with_unfolding_all rfl

theorem requests_with_line_iff_brace :
    requests ⟨"7", none⟩ [[0x7B] ++ [10]] = [] ∧
    (requests ⟨"7", none⟩ [[0x7B], 10 :: sampleLine, [10]] =
        requests ⟨"7", none⟩ [sampleLine ++ [10]] ↔
      isText [0x7B] = true ∨ (∃ l ∈ ([] : List Bytes), isText l = false) ∨
        requests ⟨"7", none⟩ [sampleLine ++ [10]] = []) := by
  have hbrace : 10 ∉ ([0x7B] : Bytes) := by decide
  have hnone : requests ⟨"7", none⟩ [[0x7B] ++ [10]] = [] := by
    rw [requests_eq, List.flatten_singleton, all_cons hbrace]
    with_unfolding_all rfl
  exact ⟨hnone, requests_with_line_iff ⟨"7", none⟩ (by simp) hbrace hnone rfl rfl⟩

/-- A line of one byte that is no UTF-8 makes no request, and takes the request after it away. -/
theorem request_lost_after_line :
    requests ⟨"7", none⟩ [[0xff] ++ [10]] = [] ∧
    requests ⟨"7", none⟩ [sampleLine ++ [10]] = [⟨"1"⟩] ∧
    requests ⟨"7", none⟩ [[0xff] ++ 10 :: (sampleLine ++ [10])] = [] := by
  have hff : 10 ∉ ([0xff] : Bytes) := by decide
  exact ⟨requests_of_not_text _ hff isText_ff [], requests_sampleLine,
    requests_of_not_text _ hff isText_ff _⟩

end Availability.Inbound
