import Availability.Proofs.Pipeline.Wiring
import Availability.Proofs.Sequences

/-!
# What a run has brought

The history of a run is read off its moves alone: the messages that were pulled, those of them
that the credential service gave a provider, what the probes said, and in which order the workers
put their results on the result queue. Probes of one provider come back in the order of its
requests, so the requests of a provider and the answers of its probes pair up.

* `History.of`: the history of a run; `History.checks` pairs a provider's requests with the answers
  of their probes.
* `Ledger`, `Run.ledger`: what the intake has counted and what it has in hand, against the history.
* `Run.routed_eq`: the requests are the sources of providers that the credential service gave out.
-/

namespace Availability.Flow

/-- A message that went on to a provider, and the source that it asks about. -/
structure Request where
  message : InboundMessage
  provider : Provider
  source : ResolvedSource

/-- A request and what its probe said. -/
structure Check where
  request : Request
  answer : Except Error Unit

def Check.result (k : Check) : ProbeResult := Worker.resultOf k.request.source k.answer

theorem Check.result_eq (k : Check) :
    k.result =
      match k.answer with
      | .ok () =>
        ⟨k.request.source.applicationId, k.request.source.identity, "Application", .available, none⟩
      | .error e =>
        ⟨k.request.source.applicationId, k.request.source.identity, "Application", .unavailable,
          some e.message⟩ := by
  unfold result Worker.resultOf
  cases k.answer <;> rfl

/-- What a run has brought. -/
structure History where
  /-- The messages that the intake pulled. -/
  pulled : List InboundMessage
  /-- Those that the credential service gave a provider, in the order in which they were pulled. -/
  routed : List Request
  /-- What the probes of each provider said. -/
  answers : PerProvider (List (Except Error Unit))
  /-- The checks whose results the workers have put on the result queue, in that order. -/
  entered : List Check
  /-- The stamps of the messages that the batcher has made. -/
  stamps : List Stamp

namespace History

def empty : History := ⟨[], [], ⟨[], [], []⟩, [], []⟩

variable (h : History) (p : Provider)

/-- The requests of a provider. -/
def requests : List Request := h.routed.filter fun r => r.provider = p

/-- The checks of a provider: its first request and the first answer of its probe, and so on. -/
def checks : List Check := List.zipWith Check.mk (h.requests p) (h.answers.get p)

/-- The checks of a provider whose results are on the result queue or beyond it. -/
def enteredOf : List Check := h.entered.filter fun k => k.request.provider = p

/-- The check whose result the worker of a provider puts on the result queue next. -/
def next? : Option Check := (h.checks p)[(h.enteredOf p).length]?

/-- The request that an answer of the credential service makes of the message pulled last, if it
gives that message a provider. -/
def request? : Except Error ResolvedSource → Option Request
  | .ok source =>
    match h.pulled.getLast?, source.providerTag with
    | some m, .known p => some ⟨m, p, source⟩
    | _, _ => none
  | .error _ => none

/-- The history after one more move. -/
def note : State.Move → History
  | .intake (.pull m) => { h with pulled := h.pulled ++ [m] }
  | .intake (.lookup answer) => { h with routed := h.routed ++ (h.request? answer).toList }
  | .worker p (.probed answer) =>
    { h with answers := h.answers.set p (h.answers.get p ++ [answer]) }
  | .worker p .offer => { h with entered := h.entered ++ (h.next? p).toList }
  | .batcher (.receive stamp) => { h with stamps := h.stamps ++ [stamp] }
  | _ => h

/-- The history of a run. -/
def of (ms : List State.Move) : History := ms.foldl note empty

theorem of_snoc (ms : List State.Move) (m : State.Move) : of (ms ++ [m]) = (of ms).note m := by
  simp [of, List.foldl_append]

theorem entered_note (m : State.Move) : h.entered <+: (h.note m).entered := by
  unfold note
  split <;> simp

theorem stamps_note (m : State.Move) : h.stamps <+: (h.note m).stamps := by
  unfold note
  split <;> simp

theorem of_append (xs ys : List State.Move) : of (xs ++ ys) = ys.foldl note (of xs) :=
  List.foldl_append

theorem grows (ms : List State.Move) :
    h.entered <+: (ms.foldl note h).entered ∧ h.stamps <+: (ms.foldl note h).stamps := by
  induction ms generalizing h with
  | nil => exact ⟨List.prefix_refl _, List.prefix_refl _⟩
  | cons m ms ih =>
    obtain ⟨hentered, hstamps⟩ := ih (h.note m)
    exact ⟨(h.entered_note m).trans hentered, (h.stamps_note m).trans hstamps⟩

theorem request?_of_dropped {answer : Except Error ResolvedSource} {v : Verdict}
    (hanswer : Dispatch.ofLookup answer = .finished v) : h.request? answer = none := by
  cases answer with
  | error e => rfl
  | ok source =>
    simp only [Dispatch.ofLookup] at hanswer
    simp only [request?]
    cases htag : source.providerTag with
    | known p => simp [htag] at hanswer
    | noop => cases h.pulled.getLast? <;> rfl
    | unknown => cases h.pulled.getLast? <;> rfl

theorem request?_of_known {p : Provider} {m : InboundMessage} {source : ResolvedSource}
    (hlast : h.pulled.getLast? = some m) (htag : source.providerTag = .known p) :
    h.request? (.ok source) = some ⟨m, p, source⟩ := by
  simp only [request?, hlast, htag]

variable {h p}

theorem provider_of_mem_checks {k : Check} (hk : k ∈ h.checks p) : k.request.provider = p := by
  obtain ⟨n, hn⟩ := List.mem_iff_getElem?.1 hk
  obtain ⟨r, answer, hr, -, rfl⟩ := List.getElem?_zipWith_eq_some.1 hn
  have hmem : r ∈ h.requests p := List.mem_of_getElem? hr
  simpa [requests] using (List.mem_filter.1 hmem).2

theorem map_request_checks_eq :
    (h.checks p).map Check.request = ((h.requests p).zip (h.answers.get p)).map Prod.fst := by
  simp only [checks, List.zip, List.map_zipWith]

theorem map_request_checks (hlen : (h.answers.get p).length = (h.requests p).length) :
    (h.checks p).map Check.request = h.requests p := by
  rw [map_request_checks_eq]
  exact List.map_fst_zip (Nat.le_of_eq hlen.symm)

theorem map_request_checks_isPrefix : (h.checks p).map Check.request <+: h.requests p := by
  rw [map_request_checks_eq]
  exact map_fst_zip_isPrefix _ _

/-- What a worker offers is of its own provider. -/
theorem enteredOf_offer (q : Provider) :
    (h.note (.worker p .offer)).enteredOf q =
      h.enteredOf q ++ if q = p then (h.next? p).toList else [] := by
  have hnote : (h.note (.worker p .offer)).entered = h.entered ++ (h.next? p).toList := rfl
  unfold enteredOf
  rw [hnote, List.filter_append]
  congr 1
  cases hnext : h.next? p with
  | none => simp
  | some k =>
    have hprovider : k.request.provider = p := provider_of_mem_checks (List.mem_of_getElem? hnext)
    by_cases hqp : q = p
    · simp [hprovider, hqp]
    · simp [hprovider, hqp, Ne.symm hqp]

end History

/-! ## The intake's ledger -/

/-- The source that the router holds for a queue, if it does. -/
def Router.inHand (r : Router) : List ResolvedSource :=
  match r.current with
  | some (.sending _ source) => [source]
  | _ => []

/-- What the intake has counted and what it has in hand, against the history. While the workers
are `calm`, none of their queues refuses anything. -/
structure Ledger (h : History) (i : Intake) (calm : Prop) : Prop where
  received : i.stats.received = h.pulled.length
  settled : i.isCrashed = false →
    i.stats.received = i.stats.routed + i.stats.dropped + i.router.current.toList.length
  emptied : i.isOver = true → i.router.current = none
  /-- The credential service is asked about the message pulled last, for that message's caller. -/
  asked : ∀ request identity, i.router.current = some (.resolving request identity) →
    ∃ m, h.pulled.getLast? = some m ∧ SourceRequest.decode m.payload = .ok request ∧
      m.identity = identity ∧ (h.routed.map Request.message).Sublist h.pulled.dropLast
  chosen : (h.routed.map Request.message).Sublist h.pulled
  known : ∀ r ∈ h.routed, r.source.providerTag = .known r.provider
  routed : calm → h.routed.length = i.stats.routed + i.router.inHand.length

namespace Ledger

variable {h : History} {i j : Intake} {calm calm' : Prop}

theorem start (c : Settings) : Ledger .empty (State.start c).intake calm where
  received := rfl
  settled _ := rfl
  emptied _ := rfl
  asked _ _ hcurrent := by cases hcurrent
  chosen := .slnil
  known _ hr := absurd hr List.not_mem_nil
  routed _ := rfl

theorem congr {h' : History} (ledger : Ledger h i calm) (hpulled : h'.pulled = h.pulled)
    (hrouted : h'.routed = h.routed) (hstats : j.stats = i.stats) (hphase : j.phase = i.phase)
    (hcurrent : j.router.current = i.router.current) (hcalm : calm' → calm) :
    Ledger h' j calm' := by
  have hcrashed : j.isCrashed = i.isCrashed := by simp only [Intake.isCrashed, hphase]
  have hover : j.isOver = i.isOver := by simp only [Intake.isOver, hphase]
  have hhand : j.router.inHand = i.router.inHand := by simp only [Router.inHand, hcurrent]
  obtain ⟨hreceived, hsettled, hemptied, hasked, hchosen, hknown, hrouted'⟩ := ledger
  constructor
  · rw [hstats, hpulled]; exact hreceived
  · rw [hstats, hcrashed, hcurrent]; exact hsettled
  · rw [hover, hcurrent]; exact hemptied
  · rw [hcurrent, hpulled, hrouted]; exact hasked
  · rw [hpulled, hrouted]; exact hchosen
  · rw [hrouted]; exact hknown
  · rw [hstats, hrouted, hhand]; exact fun hc => hrouted' (hcalm hc)

theorem reject (ledger : Ledger h i calm) {m : InboundMessage} (hready : i.isListening = true) :
    Ledger (h.note (.intake (.pull m))) (i.receive.settle i.router .malformed) calm := by
  obtain ⟨hrunning, hnone⟩ := Intake.phase_of_isListening hready
  obtain ⟨hreceived, hsettled, -, -, hchosen, hknown, hrouted⟩ := ledger
  have hsettled := hsettled (by simp [Intake.isCrashed, hrunning])
  simp only [hnone, Option.toList_none, List.length_nil, Nat.add_zero] at hsettled
  simp only [Router.inHand, hnone, List.length_nil, Nat.add_zero] at hrouted
  refine ⟨?_, fun _ => ?_, fun _ => rfl, (fun _ _ h => by cases h), ?_, hknown,
    fun hc => hrouted hc⟩
  · simpa [History.note, Intake.settle, Intake.receive] using hreceived
  · show i.stats.received + 1 = i.stats.routed + 0 + (i.stats.dropped + 1) + 0
    omega
  · exact hchosen.trans (List.sublist_append_left _ _)

theorem ask (ledger : Ledger h i calm) {m : InboundMessage} {request : SourceRequest}
    (hready : i.isListening = true) (hdecode : SourceRequest.decode m.payload = .ok request) :
    Ledger (h.note (.intake (.pull m)))
      { i.receive with router := i.router.proceed (.resolving request m.identity) } calm := by
  obtain ⟨hrunning, hnone⟩ := Intake.phase_of_isListening hready
  obtain ⟨hreceived, hsettled, -, -, hchosen, hknown, hrouted⟩ := ledger
  have hsettled := hsettled (by simp [Intake.isCrashed, hrunning])
  simp only [hnone, Option.toList_none, List.length_nil, Nat.add_zero] at hsettled
  simp only [Router.inHand, hnone, List.length_nil, Nat.add_zero] at hrouted
  refine ⟨?_, fun _ => ?_, fun hover => ?_, fun _ _ hcurrent => ?_, ?_, hknown,
    fun hc => hrouted hc⟩
  · simpa [History.note, Intake.receive] using hreceived
  · exact congrArg Nat.succ hsettled
  · simp [Intake.isOver, Intake.receive, hrunning] at hover
  · cases hcurrent
    exact ⟨m, by simp [History.note], hdecode, rfl, by simpa [History.note] using hchosen⟩
  · exact hchosen.trans (List.sublist_append_left _ _)

theorem route (ledger : Ledger h i calm) {request : SourceRequest} {identity : Principal}
    {p : Provider} {source : ResolvedSource} (hrunning : i.phase = .running)
    (hcurrent : i.router.current = some (.resolving request identity))
    (htag : source.providerTag = .known p) :
    Ledger (h.note (.intake (.lookup (.ok source)))) (i.hold (.sending p source)) calm := by
  obtain ⟨hreceived, hsettled, -, hasked, hchosen, hknown, hrouted⟩ := ledger
  obtain ⟨m, hlast, -, -, hbefore⟩ := hasked request identity hcurrent
  have hnote : (h.note (.intake (.lookup (.ok source)))).routed = h.routed ++ [⟨m, p, source⟩] := by
    simp [History.note, h.request?_of_known hlast htag]
  have hsettled := hsettled (by simp [Intake.isCrashed, hrunning])
  simp only [hcurrent, Option.toList_some, List.length_singleton] at hsettled
  simp only [Router.inHand, hcurrent, List.length_nil, Nat.add_zero] at hrouted
  refine ⟨hreceived, fun _ => hsettled, fun hover => ?_, (fun _ _ h => by cases h), ?_, ?_,
    fun hc => ?_⟩
  · simp [Intake.isOver, Intake.hold, hrunning] at hover
  · -- the message in hand was pulled last, so it comes after those of all earlier requests
    obtain ⟨before, hsplit⟩ := List.getLast?_eq_some_iff.1 hlast
    rw [hsplit, List.dropLast_concat] at hbefore
    have hpulled : (h.note (.intake (.lookup (.ok source)))).pulled = before ++ [m] := hsplit
    rw [hnote, List.map_append, hpulled]
    exact hbefore.append_right [m]
  · rw [hnote]
    intro r hr
    rcases List.mem_append.1 hr with hr | hr
    · exact hknown r hr
    · obtain rfl := List.mem_singleton.1 hr
      exact htag
  · rw [hnote, List.length_append, hrouted hc]
    rfl

/-- The router is done with the message in hand. -/
theorem settle {h' : History} (ledger : Ledger h i calm) {d : Dispatch} {r : Router} {v : Verdict}
    (hrunning : i.phase = .running) (hcurrent : i.router.current = some d)
    (hpulled : h'.pulled = h.pulled) (hrouted : h'.routed = h.routed)
    (hhand : calm → i.router.inHand.length = if v.isRouted then 1 else 0) :
    Ledger h' (i.settle r v) calm := by
  obtain ⟨hreceived, hsettled, -, -, hchosen, hknown, hcount⟩ := ledger
  have hsettled := hsettled (by simp [Intake.isCrashed, hrunning])
  simp only [hcurrent, Option.toList_some, List.length_singleton] at hsettled
  refine ⟨?_, fun _ => ?_, fun _ => rfl, (fun _ _ h => by cases h), ?_, ?_, fun hc => ?_⟩
  · rw [hpulled]; exact hreceived
  · show i.stats.received = i.stats.routed + (if v.isRouted then 1 else 0) +
      (i.stats.dropped + if v.isRouted then 0 else 1)
    split <;> omega
  · rw [hpulled, hrouted]; exact hchosen
  · rw [hrouted]; exact hknown
  · rw [hrouted, hcount hc, hhand hc]
    rfl

/-- The intake comes to an end, with nothing in hand unless it crashes. -/
theorem finish (ledger : Ledger h i calm) {phase : IntakePhase} (hrunning : i.phase = .running)
    (hcurrent : (i.finish phase).isCrashed = false → i.router.current = none)
    (hhand : i.router.inHand = []) : Ledger h (i.finish phase) calm := by
  obtain ⟨hreceived, hsettled, -, -, hchosen, hknown, hrouted⟩ := ledger
  have hsettled := hsettled (by simp [Intake.isCrashed, hrunning])
  refine ⟨hreceived, fun hcalm => ?_, fun _ => rfl, (fun _ _ h => by cases h), hchosen, hknown,
    fun hc => ?_⟩
  · rw [hcurrent hcalm] at hsettled
    exact hsettled
  · have hrouted := hrouted hc
    rw [hhand] at hrouted
    exact hrouted

/-- **The ledger is kept** by every move of the intake. A queue refuses only what is for a worker
that crashed. -/
theorem step (ledger : Ledger h i calm) {m : Intake.Move} (hstep : Intake.Step i m j)
    (hopen : calm → ∀ p, (i.router.queues.get p).receiving = true) :
    Ledger (h.note (.intake m)) j calm := by
  cases hstep with
  | malformed hready => exact ledger.reject hready
  | asked hready _ hdecode => exact ledger.ask hready hdecode
  | streamEnded hready =>
    obtain ⟨hrunning, hnone⟩ := Intake.phase_of_isListening hready
    exact ledger.finish hrunning (fun _ => hnone) (by simp [Router.inHand, hnone])
  | stopped hready =>
    obtain ⟨hrunning, hnone⟩ := Intake.phase_of_isListening hready
    exact ledger.finish hrunning (fun _ => hnone) (by simp [Router.inHand, hnone])
  | dropped hrunning hcurrent hfinished hdropped =>
    refine ledger.settle hrunning hcurrent rfl ?_ fun _ => ?_
    · simp [History.note, h.request?_of_dropped hfinished]
    · simp [Router.inHand, hcurrent, hdropped]
  | resolved hrunning hcurrent htag => exact ledger.route hrunning hcurrent htag
  | crashed hrunning hcurrent =>
    exact ledger.finish hrunning (fun h => by cases h) (by simp [Router.inHand, hcurrent])
  | entered hrunning hcurrent =>
    exact ledger.settle hrunning hcurrent rfl rfl fun _ => by
      simp [Router.inHand, hcurrent, Verdict.isRouted]
  | @refused p _ hrunning hcurrent hclosed =>
    refine ledger.settle hrunning hcurrent rfl rfl fun hc => ?_
    have hopen := hopen hc p
    rw [hclosed] at hopen
    cases hopen

end Ledger

open State

/-- **The intake's ledger**, at every moment of every run. -/
theorem Run.ledger {c : Settings} {ms : List State.Move} {s : State}
    (run : Run (State.start c) ms s) :
    Ledger (.of ms) s.intake (∀ p, (s.workers.get p).isCrashed = false) := by
  refine run.induction
    (motive := fun ms s => Ledger (.of ms) s.intake (∀ p, (s.workers.get p).isCrashed = false))
    (Ledger.start c) fun ms s m t run ih hm => ?_
  have hstep := step_of_step? hm
  have hcalm : (∀ p, (t.workers.get p).isCrashed = false) →
      ∀ p, (s.workers.get p).isCrashed = false := fun hc p => hstep.worker_calm (hc p)
  rw [History.of_snoc]
  cases hstep with
  | intake hi =>
    have hrunning : s.intake.isOver = false := by simp [Intake.isOver, hi.running]
    exact ih.step hi fun hc p => run.wired.queue_open (hc p) hrunning
  | worker hb => cases hb <;> exact ih.congr rfl rfl rfl rfl rfl hcalm
  | batcher hb => cases hb <;> exact ih.congr rfl rfl rfl rfl rfl hcalm
  | coordinator hc =>
    obtain ⟨_, _, rfl⟩ := coordinatorStep?_frame hc
    exact ih.congr rfl rfl rfl rfl rfl hcalm
  | signal => exact ih.congr rfl rfl rfl rfl rfl hcalm
  | elapse => exact ih.congr rfl rfl rfl rfl rfl hcalm

def State.Move.classified? : State.Move → Option ResolvedSource
  | .intake (.lookup (.ok source)) =>
    if source.providerTag.provider?.isSome then some source else none
  | _ => none

/-- The sources that the credential service gave out in a run and said to be of a provider. -/
def classified (ms : List State.Move) : List ResolvedSource := ms.filterMap State.Move.classified?

theorem State.Move.classified?_of_dropped {answer : Except Error ResolvedSource} {v : Verdict}
    (hanswer : Dispatch.ofLookup answer = .finished v) :
    State.Move.classified? (.intake (.lookup answer)) = none := by
  cases answer with
  | error e => rfl
  | ok source =>
    simp only [Dispatch.ofLookup] at hanswer
    simp only [State.Move.classified?]
    cases htag : source.providerTag with
    | known p => simp [htag] at hanswer
    | noop => rfl
    | unknown => rfl

/-- A request is made when the credential service gives out a source of a provider, and at no other
time. -/
theorem Run.routed_note {c : Settings} {ms : List State.Move} {s t : State} {m : State.Move}
    (run : Run (State.start c) ms s) (hm : s.step? m = some t) :
    (((History.of ms).note m).routed = (History.of ms).routed ∧ m.classified? = none) ∨
      ∃ message request p source, m = .intake (.lookup (.ok source)) ∧
        m.classified? = some source ∧
        s.intake.router.current = some (.resolving request message.identity) ∧
        ((History.of ms).note m).routed = (History.of ms).routed ++ [⟨message, p, source⟩] := by
  cases step_of_step? hm with
  | intake hi =>
    cases hi with
    | @resolved request identity p source _ hcurrent htag =>
      obtain ⟨message, hlast, -, rfl, -⟩ := run.ledger.asked _ _ hcurrent
      refine .inr ⟨message, request, p, source, rfl, ?_, hcurrent, ?_⟩
      · simp [State.Move.classified?, htag, ProviderTag.provider?]
      · simp [History.note, History.request?_of_known _ hlast htag]
    | dropped _ _ hfinished =>
      refine .inl ⟨?_, State.Move.classified?_of_dropped hfinished⟩
      simp [History.note, History.request?_of_dropped _ hfinished]
    | _ => exact .inl ⟨rfl, rfl⟩
  | worker hb => cases hb <;> exact .inl ⟨rfl, rfl⟩
  | batcher hb => cases hb <;> exact .inl ⟨rfl, rfl⟩
  | _ => exact .inl ⟨rfl, rfl⟩

/-- **Every source of a provider makes a request**, in every run. -/
theorem Run.routed_eq {c : Settings} {ms : List State.Move} {s : State}
    (run : Run (State.start c) ms s) :
    (History.of ms).routed.map Request.source = classified ms := by
  refine run.induction
    (motive := fun ms _ => (History.of ms).routed.map Request.source = classified ms) rfl
    fun ms s m t run ih hm => ?_
  rw [History.of_snoc, classified, filterMap_snoc, ← classified, ← ih]
  obtain ⟨hsame, hnone⟩ | ⟨message, request, p, source, -, hsome, -, hnew⟩ := run.routed_note hm
  · rw [hsame, hnone, Option.toList_none, List.append_nil]
  · rw [hnew, hsome, List.map_append]
    rfl

end Availability.Flow
