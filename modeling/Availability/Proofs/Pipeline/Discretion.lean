import Availability.Proofs.Pipeline.Callers
import Availability.Proofs.Pipeline.Masking

/-!
# What gets out

The payload of the credentials is for the probe alone: whatever it says, the sink is handed the
same messages and the report is the same. And a message speaks of its own request only: for whom it
is and of which application, the credential service has said in answer to that request, and no other
request or answer has a part in it.

* `Move.Alike`, `AllAlike`: moves that differ in who asks, in what a source says, and in stamps.
* `Run.of_passed`: which request a message that went to the sink is of.
* `Run.split_requests`: by which lookup a request was made.
* `Discreet`, `Run.discreet`: what gets out of a run.
-/

namespace Availability.Flow

open State

/-! ## Moves that differ in what they carry -/

/-- Moves that differ in the caller of a message and in a source that was found, as far as the two
relations allow, and in the stamp of a message. -/
inductive State.Move.Alike (caller : Principal → Principal → Prop)
    (source : ResolvedSource → ResolvedSource → Prop) : State.Move → State.Move → Prop where
  | same (m : State.Move) : Alike caller source m m
  | pulled {payload : Bytes} {x y : Principal} : caller x y →
      Alike caller source (.intake (.pull ⟨payload, x⟩)) (.intake (.pull ⟨payload, y⟩))
  | found {x y : ResolvedSource} : source x y →
      Alike caller source (.intake (.lookup (.ok x))) (.intake (.lookup (.ok y)))
  | stamped {x y : Stamp} : Alike caller source (.batcher (.receive x)) (.batcher (.receive y))

inductive AllAlike (caller : Principal → Principal → Prop)
    (source : ResolvedSource → ResolvedSource → Prop) :
    List State.Move → List State.Move → Prop where
  | nil : AllAlike caller source [] []
  | cons {m m' : State.Move} {ms ms' : List State.Move} : State.Move.Alike caller source m m' →
      AllAlike caller source ms ms' → AllAlike caller source (m :: ms) (m' :: ms')

/-- Two sources that differ at most in the payload of their credentials. -/
def SameButPayload (x y : ResolvedSource) : Prop :=
  ∃ payload, y = { x with authentication := { x.authentication with payload := payload } }

/-- Two sources of the same provider. -/
def SameProvider (x y : ResolvedSource) : Prop := x.providerTag = y.providerTag

section Alike

variable {caller : Principal → Principal → Prop} {source : ResolvedSource → ResolvedSource → Prop}

theorem AllAlike.append {ms ms' ns ns' : List State.Move} (h : AllAlike caller source ms ms')
    (h' : AllAlike caller source ns ns') : AllAlike caller source (ms ++ ns) (ms' ++ ns') := by
  induction h with
  | nil => exact h'
  | cons hm _ ih => exact .cons hm ih

variable (k : Mask) (hcaller : ∀ x y, caller x y → k.caller x = k.caller y)
  (hsource : ∀ x y, source x y → k.source x = k.source y)
include hcaller hsource

theorem State.Move.Alike.masked {m m' : State.Move} (h : State.Move.Alike caller source m m') :
    k.move m = k.move m' := by
  cases h with
  | same => rfl
  | pulled h => simp only [Mask.move, Mask.intakeMove, Mask.inbound, hcaller _ _ h]
  | found h => simp only [Mask.move, Mask.intakeMove, Mask.answer, hsource _ _ h]
  | stamped => rfl

theorem AllAlike.masked {ms ms' : List State.Move} (h : AllAlike caller source ms ms') :
    ms.map k.move = ms'.map k.move := by
  induction h with
  | nil => rfl
  | cons hm _ ih => rw [List.map_cons, List.map_cons, hm.masked k hcaller hsource, ih]

end Alike

/-! ## Two masks -/

/-- Hides the payload of credentials, and nothing else. -/
def Mask.payloads : Mask where
  caller := id
  authentication x := { x with payload := "" }
  source x := { x with authentication := { x.authentication with payload := "" } }
  result := id
  message m := { m with id := default, createdAt := default }
  providerTag_source _ := rfl
  authentication_source _ := rfl
  resultOf_source _ answer := by cases answer <;> rfl
  message_toMessage _ _ _ _ := rfl
  result_result _ := rfl
  message_message _ := rfl

/-- Hides everything that is of a caller or an application. -/
def Mask.persons : Mask where
  caller _ := default
  authentication _ := default
  source x := ⟨default, default, x.providerTag, default⟩
  result r := { r with resourceId := default, identity := default }
  message m := ⟨default, m.topic, [], [], default⟩
  providerTag_source _ := rfl
  authentication_source _ := rfl
  resultOf_source _ answer := by cases answer <;> rfl
  message_toMessage _ _ _ _ := rfl
  result_result _ := rfl
  message_message _ := rfl

/-- What a message says, apart from the stamp that sets it apart from another of the same result. -/
def content (m : OutboundMessage) : String × List (String × String) × Bytes :=
  (m.topic, m.headers, m.value)

/-- A call of the sink with what its messages say. -/
def SinkCall.contents (c : SinkCall) :
    Nat × FlushTrigger × List (String × List (String × String) × Bytes) :=
  (c.time, c.trigger, c.messages.map content)

theorem contents_of_masked {calls calls' : List SinkCall}
    (h : calls.map Mask.payloads.call = calls'.map Mask.payloads.call) :
    calls.map SinkCall.contents = calls'.map SinkCall.contents := by
  have hcontents : ∀ c, (Mask.payloads.call c).contents = c.contents := by
    intro c
    simp only [SinkCall.contents, Mask.call, List.map_map]
    rfl
  have hall := congrArg (List.map SinkCall.contents) h
  rw [List.map_map, List.map_map] at hall
  calc calls.map SinkCall.contents = calls.map (SinkCall.contents ∘ Mask.payloads.call) :=
        List.map_congr_left fun c _ => (hcontents c).symm
    _ = calls'.map (SinkCall.contents ∘ Mask.payloads.call) := hall
    _ = calls'.map SinkCall.contents := List.map_congr_left fun c _ => hcontents c

/-! ## Of which request a message is -/

section

variable {c : Settings} {ms before after : List State.Move} {s : State}

/-- How many checks of a provider are among the first `i` that entered the result queue. -/
def History.rank (h : History) (p : Provider) (i : Nat) : Nat :=
  ((h.entered.take i).filter fun x => x.request.provider = p).length

/-- **Of which request a message is.** The messages that went to the sink are those of the first
checks, and the checks of a provider are of its requests in their order. -/
theorem Run.of_passed (run : Run (State.start c) ms s) {i : Nat} {m : OutboundMessage}
    (hi : s.passed[i]? = some m) : ∃ check stamp, (History.of ms).entered[i]? = some check ∧
      m = check.result.toMessage c.topic stamp ∧
      ((History.of ms).requests check.request.provider)[
        (History.of ms).rank check.request.provider i]? = some check.request ∧
      ((History.of ms).answers.get check.request.provider)[
        (History.of ms).rank check.request.provider i]? = some check.answer := by
  obtain ⟨es, proj⟩ := run.projected
  rw [proj.passed_eq, List.getElem?_map] at hi
  obtain ⟨⟨check, stamp⟩, hd, rfl⟩ := Option.map_eq_some_iff.1 hi
  have hzip := getElem?_of_isPrefix (List.take_prefix _ _) hd
  obtain ⟨hentered, -⟩ := List.getElem?_zip_eq_some.1 hzip
  have hprovider : (History.of ms).enteredOf check.request.provider <+:
    (History.of ms).checks check.request.provider := (run.lined _).entered
  have hcheck := getElem?_of_isPrefix hprovider
    (getElem?_filter_take hentered (decide_eq_true rfl))
  obtain ⟨request, answer, hrequest, hanswer, rfl⟩ := List.getElem?_zipWith_eq_some.1 hcheck
  exact ⟨_, stamp, hentered, rfl, hrequest, hanswer⟩

/-! ## When a request was made -/

theorem History.routed_note (h : History) (m : State.Move) :
    (h.note m).routed = h.routed ∨ ∃ message p source, m = .intake (.lookup (.ok source)) ∧
      h.pulled.getLast? = some message ∧ source.providerTag = .known p ∧
      (h.note m).routed = h.routed ++ [⟨message, p, source⟩] := by
  cases m with
  | intake m =>
    cases m with
    | lookup answer =>
      cases answer with
      | error e => exact .inl (List.append_nil _)
      | ok source =>
        simp only [note, request?]
        cases hlast : h.pulled.getLast? with
        | none => exact .inl (List.append_nil _)
        | some message =>
          cases htag : source.providerTag with
          | known p => exact .inr ⟨message, p, source, rfl, rfl, htag, rfl⟩
          | _ => exact .inl (List.append_nil _)
    | _ => exact .inl rfl
  | worker p m => cases m <;> exact .inl rfl
  | batcher m => cases m <;> exact .inl rfl
  | _ => exact .inl rfl

theorem History.requests_isPrefix (h : History) (ms : List State.Move) (p : Provider) :
    h.requests p <+: (ms.foldl note h).requests p := by
  induction ms generalizing h with
  | nil => exact List.prefix_refl _
  | cons m ms ih =>
    refine List.IsPrefix.trans ?_ (ih (h.note m))
    obtain hsame | ⟨_, _, _, -, -, -, hnew⟩ := h.routed_note m
    · simp only [requests, hsame]
      exact List.prefix_refl _
    · simp only [requests, hnew, List.filter_append]
      exact List.prefix_append _ _

/-- A request was made by the lookup of its source, on behalf of the message pulled last. -/
theorem Run.split_requests (run : Run (State.start c) ms s) {p : Provider} {n : Nat} {r : Request}
    (hr : ((History.of ms).requests p)[n]? = some r) : ∃ before after,
      ms = before ++ .intake (.lookup (.ok r.source)) :: after ∧
      ((History.of before).requests p).length = n ∧
      (History.of before).pulled.getLast? = some r.message ∧ r.source.providerTag = .known p := by
  revert hr
  refine run.induction (motive := fun ms _ => ((History.of ms).requests p)[n]? = some r →
    ∃ before after, ms = before ++ .intake (.lookup (.ok r.source)) :: after ∧
      ((History.of before).requests p).length = n ∧
      (History.of before).pulled.getLast? = some r.message ∧ r.source.providerTag = .known p)
    (fun hr => by cases hr) fun ms t m u _ ih _ hr => ?_
  rw [History.of_snoc] at hr
  by_cases hold : ((History.of ms).requests p)[n]? = some r
  · obtain ⟨before, after, rfl, hrest⟩ := ih hold
    exact ⟨before, after ++ [m], by simp, hrest⟩
  · obtain hsame | ⟨message, q, source, rfl, hlast, htag, hnew⟩ := (History.of ms).routed_note m
    · simp only [History.requests, hsame] at hr hold
      exact absurd hr hold
    · by_cases hqp : q = p
      · subst hqp
        have hafter : ((History.of ms).note (.intake (.lookup (.ok source)))).requests q =
            (History.of ms).requests q ++ [⟨message, q, source⟩] := by
          simp [History.requests, hnew]
        rw [hafter] at hr
        obtain ⟨hlt, -⟩ := List.getElem?_eq_some_iff.1 hr
        rw [List.length_append, List.length_singleton] at hlt
        have hlength : ((History.of ms).requests q).length = n := by
          by_cases hbefore : n < ((History.of ms).requests q).length
          · rw [List.getElem?_append_left hbefore] at hr
            exact absurd hr hold
          · omega
        rw [← hlength, List.getElem?_concat_length] at hr
        cases hr
        exact ⟨ms, [], rfl, hlength, hlast, htag⟩
      · have hafter : ((History.of ms).note (.intake (.lookup (.ok source)))).requests p =
            (History.of ms).requests p := by
          simp [History.requests, hnew, hqp]
        rw [hafter] at hr
        exact absurd hr hold

/-- The request that the lookup of a source of a provider makes stays where it was made. -/
theorem History.requests_lookup {message : InboundMessage} {p : Provider} {source : ResolvedSource}
    (hlast : (History.of before).pulled.getLast? = some message)
    (htag : source.providerTag = .known p) (after : List State.Move) :
    ((History.of (before ++ .intake (.lookup (.ok source)) :: after)).requests p)[
      ((History.of before).requests p).length]? = some ⟨message, p, source⟩ := by
  have hmade : ((History.of before).note (.intake (.lookup (.ok source)))).requests p =
      (History.of before).requests p ++ [⟨message, p, source⟩] := by
    simp [requests, note, request?_of_known _ hlast htag]
  rw [History.of_append, List.foldl_cons]
  refine getElem?_of_isPrefix (requests_isPrefix _ after p) ?_
  rw [hmade, List.getElem?_concat_length]

/-- The message of a check is about the source that the lookup found which made its request. -/
theorem Run.passed_of_lookup {message : InboundMessage} {source : ResolvedSource} {p : Provider}
    (run : Run (State.start c) ms s)
    (hms : ms = before ++ .intake (.lookup (.ok source)) :: after)
    (hlast : (History.of before).pulled.getLast? = some message)
    (htag : source.providerTag = .known p) {i : Nat} (hi : i < s.passed.length)
    (hprovider : (History.of ms).entered[i]?.map (·.request.provider) = some p)
    (hrank : ((History.of before).requests p).length = (History.of ms).rank p i) :
    ∃ answer stamp, ((History.of ms).answers.get p)[(History.of ms).rank p i]? = some answer ∧
      s.passed[i]? = some ((Worker.resultOf source answer).toMessage c.topic stamp) := by
  subst hms
  obtain ⟨check, stamp, hentered, hm, hrequest, hanswer⟩ :=
    run.of_passed (List.getElem?_eq_getElem hi)
  rw [hentered, Option.map_some, Option.some.injEq] at hprovider
  subst hprovider
  have hmade := History.requests_lookup hlast htag after
  rw [hrank, hrequest, Option.some.injEq] at hmade
  refine ⟨check.answer, stamp, hanswer, ?_⟩
  rw [List.getElem?_eq_getElem hi, hm, Check.result, hmade]

/-! ## What gets out of a run -/

/-- Runs in which other callers ask, and other sources of the same providers are found. -/
abbrev AllOfShape : List State.Move → List State.Move → Prop :=
  AllAlike (fun _ _ => True) SameProvider

/-- The message in place `i` is of a lookup: of the source found there and of nothing else that the
run has brought. -/
structure OfLookup (c : Settings) (ms : List State.Move) (i : Nat) (before : List State.Move)
    (source : ResolvedSource) (answer : Except Error Unit) (after : List State.Move) : Prop where
  split : ms = before ++ .intake (.lookup (.ok source)) :: after
  /-- The source was looked up for the message pulled last, and is its caller's, if lookups are
  answered for the caller who asks. -/
  caller : ∃ message, (History.of before).pulled.getLast? = some message ∧
    ∀ resolver : Resolver, resolver.KeepsCaller → AnsweredBy resolver (State.start c) ms →
      source.identity = message.identity
  /-- Whoever else asks and whatever else is found, the message in this place is of the source found
  there. -/
  elsewhere : ∀ before' source' after' s', AllOfShape before before' →
    SameProvider source source' → AllOfShape after after' →
    Run (State.start c) (before' ++ .intake (.lookup (.ok source')) :: after') s' →
    ∃ stamp, s'.passed[i]? = some ((Worker.resultOf source' answer).toMessage c.topic stamp)

/-- What gets out of a run. -/
structure Discreet (c : Settings) (ms : List State.Move) (s : State) : Prop where
  /-- A run in which the credentials have other payloads can be made too, and hands the sink the
  same messages at the same calls, and comes to the same. -/
  blind : ∀ ms', AllAlike Eq SameButPayload ms ms' → (∃ s', Run (State.start c) ms' s') ∧
    ∀ s', Run (State.start c) ms' s' →
      s'.batcher.calls.map SinkCall.contents = s.batcher.calls.map SinkCall.contents ∧
        s'.result? = s.result?
  /-- So can a run in which others ask, and other sources of the same providers are found. -/
  possible : ∀ ms', AllOfShape ms ms' → ∃ s', Run (State.start c) ms' s'
  own : ∀ (i : Nat) (m : OutboundMessage), s.passed[i]? = some m →
    ∃ before source answer after stamp,
      m = (Worker.resultOf source answer).toMessage c.topic stamp ∧
        OfLookup c ms i before source answer after

/-! ## Runs with other callers and sources -/

theorem Mask.passed_state (k : Mask) (s : State) :
    (k.state s).passed = s.passed.map k.message := by
  have hcalls : (k.state s).passed = (s.batcher.calls.map k.call).flatMap SinkCall.messages := rfl
  rw [hcalls, List.flatMap_map, passed, Batcher.Bench.passed, List.map_flatMap]
  rfl

theorem Mask.rank_history (k : Mask) (h : History) (p : Provider) (i : Nat) :
    (k.history h).rank p i = h.rank p i := by
  rw [History.rank, show (k.history h).entered = h.entered.map k.check from rfl, ← List.map_take,
    List.filter_map, List.length_map]
  rfl

theorem Mask.length_requests (k : Mask) (h : History) (p : Provider) :
    ((k.history h).requests p).length = (h.requests p).length := by
  rw [requests_history, List.length_map]

theorem AllOfShape.persons {ms ms' : List State.Move}
    (h : AllOfShape ms ms') :
    ms.map Mask.persons.move = ms'.map Mask.persons.move := by
  refine h.masked Mask.persons (fun _ _ _ => rfl) fun x y hxy => ?_
  simp only [Mask.persons, show x.providerTag = y.providerTag from hxy]

/-- Histories that look alike once callers and applications are hidden. -/
structure History.SameShape (h h' : History) : Prop where
  answers : h'.answers = h.answers
  requests : ∀ p, (h'.requests p).length = (h.requests p).length
  providers : ∀ i : Nat, h'.entered[i]?.map (·.request.provider) =
    h.entered[i]?.map (·.request.provider)
  rank : ∀ p i, h'.rank p i = h.rank p i
  pulled : h'.pulled.length = h.pulled.length

theorem AllOfShape.sameShape {ms ms' : List State.Move}
    (h : AllOfShape ms ms') :
    History.SameShape (.of ms) (.of ms') := by
  have hsame : Mask.persons.history (.of ms') = Mask.persons.history (.of ms) := by
    rw [Mask.history_of, Mask.history_of, h.persons]
  have hanswers : (Mask.persons.history (.of ms')).answers =
      (Mask.persons.history (.of ms)).answers := congrArg History.answers hsame
  refine ⟨hanswers, fun p => ?_, fun i => ?_, fun p i => ?_, ?_⟩
  · have hrequests := congrArg (fun h : History => (h.requests p).length) hsame
    simpa only [Mask.length_requests] using hrequests
  · have hproviders := congrArg
      (fun h : History => h.entered[i]?.map (·.request.provider)) hsame
    simp only [Mask.history, List.getElem?_map, Option.map_map] at hproviders
    exact hproviders
  · have hrank := congrArg (fun h : History => h.rank p i) hsame
    simpa only [Mask.rank_history] using hrank
  · have hpulled := congrArg (fun h : History => h.pulled.length) hsame
    simpa only [Mask.history, List.length_map] using hpulled

theorem Run.length_passed_alike {ms' : List State.Move} {s' : State}
    (run : Run (State.start c) ms s) (run' : Run (State.start c) ms' s')
    (h : AllOfShape ms ms') :
    s'.passed.length = s.passed.length := by
  obtain ⟨t, other, ht⟩ := Mask.persons.run rfl h.persons run
  obtain rfl := run'.unique other
  have hlengths := congrArg (fun s : State => s.passed.length) ht
  simpa only [Mask.passed_state, List.length_map] using hlengths.symm

/-- **What gets out of a run.** -/
theorem Run.discreet (run : Run (State.start c) ms s) : Discreet c ms s := by
  refine ⟨fun ms' halike => ?_, fun ms' halike => ?_, fun i m hi => ?_⟩
  · have hmasked := halike.masked Mask.payloads (fun x y hxy => hxy) fun x y hxy => by
      obtain ⟨payload, rfl⟩ := hxy
      rfl
    obtain ⟨t, run', ht⟩ := Mask.payloads.run rfl hmasked run
    refine ⟨⟨t, run'⟩, fun s' other => ?_⟩
    obtain rfl := run'.unique other
    have hcalls : s.batcher.calls.map Mask.payloads.call =
        t.batcher.calls.map Mask.payloads.call := congrArg (·.batcher.calls) ht
    have hresult : (Mask.payloads.state s).result? = (Mask.payloads.state t).result? :=
      congrArg State.result? ht
    exact ⟨(contents_of_masked hcalls).symm, hresult.symm⟩
  · obtain ⟨t, run', -⟩ := Mask.persons.run rfl halike.persons run
    exact ⟨t, run'⟩
  · obtain ⟨check, stamp, hentered, hm, hrequest, hanswer⟩ := run.of_passed hi
    obtain ⟨before, after, rfl, hlength, hlast, htag⟩ := run.split_requests hrequest
    refine ⟨before, check.request.source, check.answer, after, stamp, hm, rfl,
      ⟨check.request.message, hlast, fun resolver hkeeps hanswered => ?_⟩,
      fun before' source' after' s' hbefore hsource hafter run' => ?_⟩
    · have hmem := (List.mem_filter.1 (List.mem_of_getElem? hrequest)).1
      exact run.caller_kept hkeeps hanswered _ hmem
    · have halike : AllOfShape _ _ := hbefore.append (.cons (.found hsource) hafter)
      have shape := halike.sameShape
      have earlier := hbefore.sameShape
      have hpassed : i < s'.passed.length := by
        rw [run.length_passed_alike run' halike]
        exact (List.getElem?_eq_some_iff.1 hi).1
      -- the lookup comes after as many requests of the provider as before, and asks for a message
      obtain ⟨message', hlast'⟩ :
          ∃ message', (History.of before').pulled.getLast? = some message' := by
        rw [← Option.isSome_iff_exists, List.getLast?_isSome, ← List.length_pos_iff,
          earlier.pulled, List.length_pos_iff, ← List.getLast?_isSome, hlast]
        rfl
      have hprovider := shape.providers i
      rw [hentered] at hprovider
      have hplace : ((History.of before').requests check.request.provider).length = _ :=
        (earlier.requests _).trans (hlength.trans (shape.rank _ _).symm)
      obtain ⟨answer, stamp', hanswer', hm'⟩ := run'.passed_of_lookup rfl hlast'
        (hsource.symm.trans htag) hpassed hprovider hplace
      rw [shape.answers, shape.rank, hanswer] at hanswer'
      cases hanswer'
      exact ⟨stamp', hm'⟩

end

/-- One request twice, with a probe that fails and a sink that refuses the batch. -/
theorem discreet_duplicate : ∃ ms s report,
    Run (State.start ⟨1, 2, 5000, 30, "status"⟩) ms s ∧ s.result? = some (.ok report) ∧
      s.passed.length = 2 ∧ Discreet ⟨1, 2, 5000, 30, "status"⟩ ms s := by
  obtain ⟨ms, s, run, hresult⟩ := exists_finished_run
  have hpassed : s.passed.length = 2 := by
    obtain ⟨hover, hcalm, reason, hreport⟩ := run.finished hresult
    obtain ⟨es, proj⟩ := run.projected
    have complete := run.complete hover hcalm
    have hstats : s.batcher.stats = ⟨1, 0, 0, 0, 2⟩ := (congrArg Report.batcher hreport).symm
    rw [proj.passed_eq, List.length_map, ← List.length_map (f := Prod.fst), complete.delivered,
      ← complete.batched, hstats]
    rfl
  exact ⟨ms, s, _, run, hresult, hpassed, run.discreet⟩

end Availability.Flow
