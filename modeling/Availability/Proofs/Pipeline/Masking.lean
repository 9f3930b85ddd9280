import Availability.Proofs.Pipeline.Containment

/-!
# What the stages do not look at

The stages pass on who asked, what the credentials of a source say and what a message carries, but
none of this decides what they do next. A `Mask` hides such data. Two pipelines that look alike
under a mask make the same moves and look alike afterwards.

* `Mask`: what is hidden of callers, sources, results and messages, and that results of hidden
  sources are hidden results.
* `Mask.intake_step?`, `Mask.worker_step?`, `Mask.batcher_step?`, `Mask.coordinatorStep?_eq`: a
  stage that sees hidden data makes the moves that it makes otherwise.
* `Mask.run`: pipelines that look alike, after moves that look alike, still do.
* `Mask.history_of`: the history of hidden moves is the hidden history.
-/

namespace Availability.Flow

/-- What is hidden of the data that go through a pipeline. When a message was made, and under which
identifier, is hidden in any case. -/
structure Mask where
  caller : Principal → Principal
  authentication : Authentication → Authentication
  source : ResolvedSource → ResolvedSource
  result : ProbeResult → ProbeResult
  message : OutboundMessage → OutboundMessage
  providerTag_source : ∀ x, (source x).providerTag = x.providerTag
  authentication_source : ∀ x, (source x).authentication = authentication x.authentication
  resultOf_source : ∀ x answer,
    Worker.resultOf (source x) answer = result (Worker.resultOf x answer)
  message_toMessage : ∀ topic stamp stamp' r,
    message ((result r).toMessage topic stamp') = message (r.toMessage topic stamp)
  result_result : ∀ r, result (result r) = result r
  message_message : ∀ m, message (message m) = message m

/-! ## Queues -/

namespace Queue

variable {α β : Type}

def map (f : α → β) (q : Queue α) : Queue β := ⟨q.capacity, q.items.map f, q.senders, q.receiving⟩

theorem pop?_map (f : α → β) (q : Queue α) :
    (q.map f).pop? = q.pop?.map fun x => (f x.1, x.2.map f) := by
  cases hq : q.items <;> simp [pop?, map, hq]

theorem atEnd_map (f : α → β) (q : Queue α) : (q.map f).atEnd = q.atEnd := by
  simp [atEnd, map]

def Offer.map (f : α → β) : Offer α → Offer β
  | .entered q => .entered (q.map f)
  | .refused => .refused
  | .waits => .waits

theorem offer_map (f : α → β) (q : Queue α) (x : α) :
    (q.map f).offer (f x) = (q.offer x).map f := by
  unfold offer hasRoom
  cases hopen : q.receiving
  · simp [map, hopen, Offer.map]
  · by_cases hroom : q.items.length < q.capacity <;> simp [map, hopen, hroom, Offer.map, push]

end Queue

/-- The move with no regard to the stamp that a message gets. -/
def Batcher.Move.unstamped : Batcher.Move → Batcher.Move
  | .receive _ => .receive default
  | m => m

namespace Mask

variable (k : Mask)

/-! ## The intake -/

def dispatch : Dispatch → Dispatch
  | .resolving request identity => .resolving request (k.caller identity)
  | .sending p source => .sending p (k.source source)
  | .finished v => .finished v

def router (r : Router) : Router :=
  { r with queues := r.queues.map (Queue.map k.source), current := r.current.map k.dispatch }

def intake (i : Intake) : Intake := { i with router := k.router i.router }

def inbound (m : InboundMessage) : InboundMessage := { m with identity := k.caller m.identity }

def answer : Except Error ResolvedSource → Except Error ResolvedSource
  | .ok source => .ok (k.source source)
  | .error e => .error e

def intakeMove : Intake.Move → Intake.Move
  | .pull m => .pull (k.inbound m)
  | .lookup answer => .lookup (k.answer answer)
  | m => m

theorem dispatch_start (m : InboundMessage) :
    k.dispatch (.start m) = .start (k.inbound m) := by
  unfold Dispatch.start
  rw [show (k.inbound m).payload = m.payload from rfl]
  cases SourceRequest.decode m.payload <;> rfl

theorem dispatch_ofLookup (answer : Except Error ResolvedSource) :
    k.dispatch (.ofLookup answer) = .ofLookup (k.answer answer) := by
  cases answer with
  | error e => rfl
  | ok source =>
    simp only [Dispatch.ofLookup, Mask.answer, k.providerTag_source]
    cases source.providerTag <;> rfl

theorem router_proceed (r : Router) (d : Dispatch) :
    k.router (r.proceed d) = (k.router r).proceed (k.dispatch d) := by
  cases d <;> rfl

theorem router_handle (r : Router) (m : InboundMessage) :
    (k.router r).step? (.handle (k.inbound m)) = (r.step? (.handle m)).map k.router := by
  simp only [Router.step?, show (k.router r).current = r.current.map k.dispatch from rfl]
  cases r.current with
  | none => simp only [Option.map_none, Option.map_some, router_proceed, dispatch_start]
  | some d => rfl

theorem router_lookup (r : Router) (answer : Except Error ResolvedSource) :
    (k.router r).step? (.lookup (k.answer answer)) = (r.step? (.lookup answer)).map k.router := by
  simp only [Router.step?, show (k.router r).current = r.current.map k.dispatch from rfl]
  cases r.current with
  | none => rfl
  | some d =>
    cases d with
    | resolving request identity =>
      simp only [Option.map_some, k.router_proceed, k.dispatch_ofLookup]
      rfl
    | sending p source => rfl
    | finished v => rfl

theorem queues_router (r : Router) (p : Provider) :
    (k.router r).queues.get p = (r.queues.get p).map k.source :=
  PerProvider.get_map _ _ _

theorem router_enqueue (r : Router) :
    (k.router r).step? .enqueue = (r.step? .enqueue).map k.router := by
  simp only [Router.step?, show (k.router r).current = r.current.map k.dispatch from rfl]
  cases r.current with
  | none => rfl
  | some d =>
    cases d with
    | resolving request identity => rfl
    | sending p source =>
      simp only [dispatch, Option.map_some, queues_router, Queue.offer_map]
      cases (r.queues.get p).offer source with
      | entered q => cases p <;> rfl
      | refused => rfl
      | waits => rfl
    | finished v => rfl

theorem map_follow (i : Intake) (r : Option Router) :
    (r.map k.router).map (k.intake i).follow = (r.map i.follow).map k.intake := by
  cases r <;> rfl

/-- What the intake does, it does without looking at who asks or what a source says. -/
theorem intake_step? (i : Intake) (m : Intake.Move) :
    (k.intake i).step? (k.intakeMove m) = (i.step? m).map k.intake := by
  have hover : (k.intake i).isOver = i.isOver := rfl
  have hcancelled : (k.intake i).cancelled = i.cancelled := rfl
  have hrouter : (k.intake i).router = k.router i.router := rfl
  have hlistening : (k.intake i).isListening = i.isListening := by
    simp only [Intake.isListening, hover, hrouter, router, Option.isNone_map]
  cases m with
  | pull m =>
    simp only [intakeMove, Intake.step?, hlistening, hcancelled, hrouter, router_handle]
    split
    · exact k.map_follow i.receive _
    · rfl
  | streamEnds =>
    simp only [intakeMove, Intake.step?, hlistening, hcancelled]
    split <;> rfl
  | stop =>
    simp only [intakeMove, Intake.step?, hlistening, hcancelled]
    split <;> rfl
  | lookup answer =>
    simp only [intakeMove, Intake.step?, hover, hrouter, router_lookup]
    split
    · rfl
    · exact k.map_follow i _
  | crash text =>
    have hphase : (k.intake i).phase = i.phase := rfl
    simp only [intakeMove, Intake.step?, hphase, hrouter, router]
    cases i.phase with
    | running =>
      cases i.router.current with
      | none => rfl
      | some d => cases d <;> rfl
    | _ => rfl
  | enqueue =>
    simp only [intakeMove, Intake.step?, hover, hrouter, router_enqueue]
    split
    · rfl
    · exact k.map_follow i _

/-! ## The workers -/

def workerPhase : WorkerPhase → WorkerPhase
  | .probing source => .probing (k.source source)
  | .offering r => .offering (k.result r)
  | phase => phase

def worker (w : Worker) : Worker :=
  { w with phase := k.workerPhase w.phase, probed := w.probed.map k.authentication }

def bench (b : Worker.Bench) : Worker.Bench :=
  ⟨k.worker b.worker, b.inbox.map k.source, b.outbox.map k.result⟩

theorem worker_record (w : Worker) (source : ResolvedSource) (answer : Except Error Unit) :
    k.worker (w.record (Worker.resultOf source answer)) =
      (k.worker w).record (Worker.resultOf (k.source source) answer) := by
  have hstatus : (Worker.resultOf (k.source source) answer).status =
      (Worker.resultOf source answer).status := by
    cases answer <;> rfl
  simp only [Worker.record, worker, workerPhase, ← k.resultOf_source, hstatus]

/-- What a worker does, it does without looking at the source that it probes. -/
theorem worker_step? (b : Worker.Bench) (m : Worker.Move) :
    Worker.step? (k.bench b) m = (Worker.step? b m).map k.bench := by
  have hphase : (k.bench b).worker.phase = k.workerPhase b.worker.phase := rfl
  cases m with
  | take =>
    simp only [Worker.step?, hphase, show (k.bench b).inbox = b.inbox.map k.source from rfl,
      Queue.pop?_map]
    cases hb : b.worker.phase with
    | waiting =>
      simp only [workerPhase]
      cases b.inbox.pop? with
      | none => rfl
      | some x =>
        simp only [Option.map_some, bench, worker, workerPhase, List.map_append, List.map_singleton,
          k.authentication_source]
    | _ => rfl
  | probed answer =>
    simp only [Worker.step?, hphase]
    cases hb : b.worker.phase with
    | probing source =>
      simp only [workerPhase, Option.map_some, bench, worker_record]
    | _ => rfl
  | crash text =>
    simp only [Worker.step?, hphase]
    cases hb : b.worker.phase <;> rfl
  | offer =>
    simp only [Worker.step?, hphase]
    cases hb : b.worker.phase with
    | offering r =>
      simp only [workerPhase, show (k.bench b).outbox = b.outbox.map k.result from rfl,
        Queue.offer_map]
      cases b.outbox.offer r <;> rfl
    | _ => rfl
  | finish =>
    simp only [Worker.step?, hphase]
    cases hb : b.worker.phase with
    | waiting =>
      simp only [workerPhase, show (k.bench b).inbox = b.inbox.map k.source from rfl,
        Queue.atEnd_map]
      split <;> rfl
    | _ => rfl

/-! ## The batcher -/

def batcherPhase : BatcherPhase → BatcherPhase
  | .flushing messages trigger => .flushing (messages.map k.message) trigger
  | phase => phase

def call (c : SinkCall) : SinkCall := { c with messages := c.messages.map k.message }

def batcher (b : Batcher) : Batcher :=
  { b with
    phase := k.batcherPhase b.phase
    batch := ⟨b.batch.limit, b.batch.items.map k.message⟩
    calls := b.calls.map k.call }

def batcherBench (b : Batcher.Bench) : Batcher.Bench :=
  ⟨k.batcher b.batcher, b.inbox.map k.result, b.now⟩

theorem map_message (messages : List OutboundMessage) :
    (messages.map k.message).map k.message = messages.map k.message := by
  rw [List.map_map]
  exact List.map_congr_left fun m _ => k.message_message m

theorem queue_result (q : Queue ProbeResult) :
    (q.map k.result).map k.result = q.map k.result := by
  simp only [Queue.map, List.map_map]
  exact congrArg (Queue.mk q.capacity · q.senders q.receiving)
    (List.map_congr_left fun r _ => k.result_result r)

theorem batcher_flush (b : Batcher) (now : Nat) (messages : List OutboundMessage)
    (trigger : FlushTrigger) :
    k.batcher (b.flush now messages trigger) =
      (k.batcher b).flush now (messages.map k.message) trigger := by
  simp only [batcher, Batcher.flush, List.map_append, List.map_singleton]
  rfl

theorem map_call (calls : List SinkCall) :
    (calls.map k.call).map k.call = calls.map k.call := by
  rw [List.map_map]
  refine List.map_congr_left fun c _ => ?_
  simp only [Function.comp_apply, call, map_message]

theorem batcherPhase_batcherPhase (phase : BatcherPhase) :
    k.batcherPhase (k.batcherPhase phase) = k.batcherPhase phase := by
  cases phase <;> simp only [batcherPhase, map_message]

/-- A batcher that gets messages which look alike, looks alike. -/
theorem batcher_items (b : Batcher) {items items' : List OutboundMessage}
    (h : items'.map k.message = items.map k.message) :
    k.batcher { k.batcher b with batch := ⟨b.batch.limit, items'⟩ } =
      k.batcher { b with batch := ⟨b.batch.limit, items⟩ } := by
  simp only [batcher, h, map_call, batcherPhase_batcherPhase]

theorem batcher_batcher (b : Batcher) : k.batcher (k.batcher b) = k.batcher b :=
  k.batcher_items b (k.map_message b.batch.items)

theorem batcher_launch (b : Batcher) (now : Nat) {messages messages' : List OutboundMessage}
    (trigger : FlushTrigger) (h : messages'.map k.message = messages.map k.message) :
    k.batcher ({ k.batcher b with batch := ⟨b.batch.limit, []⟩ }.flush now messages' trigger) =
      k.batcher ({ b with batch := ⟨b.batch.limit, []⟩ }.flush now messages trigger) := by
  rw [batcher_flush, batcher_flush, h, k.batcher_items b rfl]

theorem batcherBench_eq {b b' : Batcher} {inbox inbox' : Queue ProbeResult}
    (hb : k.batcher b' = k.batcher b) (hinbox : inbox'.map k.result = inbox.map k.result)
    (now : Nat) :
    some (k.batcherBench ⟨b', inbox', now⟩) = some (k.batcherBench ⟨b, inbox, now⟩) := by
  simp only [batcherBench, hb, hinbox]

theorem batcher_receive (b : Batcher.Bench) (stamp stamp' : Stamp) :
    (Batcher.step? (k.batcherBench b) (.receive stamp')).map k.batcherBench =
      (Batcher.step? b (.receive stamp)).map k.batcherBench := by
  obtain ⟨⟨topic, phase, ⟨limit, items⟩, ticker, stats, calls, measurements⟩, inbox, now⟩ := b
  cases phase with
  | waiting =>
    simp only [Batcher.step?, batcherBench, batcher, batcherPhase, Queue.pop?_map]
    cases inbox.pop? with
    | none => rfl
    | some x =>
      obtain ⟨r, inbox⟩ := x
      have hsame : (items.map k.message ++ [(k.result r).toMessage topic stamp']).map k.message =
          (items ++ [r.toMessage topic stamp]).map k.message := by
        simp only [List.map_append, map_message, List.map_singleton,
          k.message_toMessage topic stamp]
      let b : Batcher := ⟨topic, .waiting, ⟨limit, items⟩, ticker, stats, calls, measurements⟩
      by_cases hfull : limit ≤ items.length + 1
      · simp only [Option.map_some, Batch.push, List.length_map, if_pos hfull]
        exact k.batcherBench_eq (k.batcher_launch b now .full hsame) (k.queue_result inbox) now
      · simp only [Option.map_some, Batch.push, List.length_map, if_neg hfull]
        exact k.batcherBench_eq (k.batcher_items b hsame) (k.queue_result inbox) now
  | _ => rfl

theorem batcher_tick (b : Batcher.Bench) :
    (Batcher.step? (k.batcherBench b) .tick).map k.batcherBench =
      (Batcher.step? b .tick).map k.batcherBench := by
  obtain ⟨⟨topic, phase, ⟨limit, items⟩, ticker, stats, calls, measurements⟩, inbox, now⟩ := b
  cases phase with
  | waiting =>
    simp only [Batcher.step?, batcherBench, batcher, batcherPhase]
    by_cases hdue : ticker.due ≤ now
    · let b : Batcher :=
        ⟨topic, .waiting, ⟨limit, items⟩, ticker.advance now, stats, calls, measurements⟩
      simp only [hdue, if_true]
      cases items with
      | nil => exact k.batcherBench_eq (k.batcher_items b rfl) (k.queue_result inbox) now
      | cons m items =>
        exact k.batcherBench_eq (k.batcher_launch b now .tick (k.map_message (m :: items)))
          (k.queue_result inbox) now
    · simp only [hdue, if_false, Option.map_none]
  | _ => rfl

theorem batcher_drain (b : Batcher.Bench) :
    (Batcher.step? (k.batcherBench b) .drain).map k.batcherBench =
      (Batcher.step? b .drain).map k.batcherBench := by
  obtain ⟨⟨topic, phase, ⟨limit, items⟩, ticker, stats, calls, measurements⟩, inbox, now⟩ := b
  cases phase with
  | waiting =>
    simp only [Batcher.step?, batcherBench, batcher, batcherPhase, Queue.atEnd_map]
    by_cases hend : inbox.atEnd = true
    · simp only [if_pos hend]
      cases items with
      | nil =>
        let b : Batcher := ⟨topic, .ended, ⟨limit, []⟩, ticker, stats, calls, measurements⟩
        exact k.batcherBench_eq (k.batcher_items b rfl) (k.queue_result inbox) now
      | cons m items =>
        let b : Batcher :=
          ⟨topic, .waiting, ⟨limit, m :: items⟩, ticker, stats, calls, measurements⟩
        exact k.batcherBench_eq (k.batcher_launch b now .shutdown (k.map_message (m :: items)))
          (k.queue_result inbox) now
    · simp only [if_neg hend, Option.map_none]
  | _ => rfl

theorem batcher_answered (b : Batcher) (now count : Nat) (trigger : FlushTrigger)
    (answer : Except Error Unit) :
    k.batcher (b.answered now count trigger answer) =
      (k.batcher b).answered now count trigger answer := by
  cases trigger <;> cases answer <;> rfl

/-- What the batcher does, it does without looking at the messages, nor at the stamp of the next. -/
theorem batcher_step? (b : Batcher.Bench) {m m' : Batcher.Move} (h : m.unstamped = m'.unstamped) :
    (Batcher.step? (k.batcherBench b) m').map k.batcherBench =
      (Batcher.step? b m).map k.batcherBench := by
  cases m <;> cases m' <;> cases h
  case receive.receive.refl stamp stamp' => exact k.batcher_receive b stamp stamp'
  case tick.tick.refl => exact k.batcher_tick b
  case drain.drain.refl => exact k.batcher_drain b
  case sent.sent.refl answer =>
    obtain ⟨⟨topic, phase, ⟨limit, items⟩, ticker, stats, calls, measurements⟩, inbox, now⟩ := b
    cases phase with
    | flushing messages trigger =>
      let b : Batcher :=
        ⟨topic, .flushing messages trigger, ⟨limit, items⟩, ticker, stats, calls, measurements⟩
      have hsame : k.batcher ((k.batcher b).answered now messages.length trigger answer) =
          k.batcher (b.answered now messages.length trigger answer) := by
        rw [batcher_answered, batcher_answered, batcher_batcher]
      simp only [Batcher.step?, batcherBench, batcher, batcherPhase, List.length_map]
      exact k.batcherBench_eq hsame (k.queue_result inbox) now
    | _ => rfl
  case crash.crash.refl text =>
    obtain ⟨⟨topic, phase, ⟨limit, items⟩, ticker, stats, calls, measurements⟩, inbox, now⟩ := b
    cases phase with
    | flushing messages trigger =>
      let b : Batcher :=
        ⟨topic, .crashed text, ⟨limit, items⟩, ticker, stats, calls, measurements⟩
      exact k.batcherBench_eq (k.batcher_items b (k.map_message items)) rfl now
    | _ => rfl

/-! ## The pipeline -/

def state (s : State) : State :=
  { s with
    intake := k.intake s.intake
    workers := s.workers.map k.worker
    results := s.results.map k.result
    batcher := k.batcher s.batcher }

def move : State.Move → State.Move
  | .intake m => .intake (k.intakeMove m)
  | .batcher m => .batcher m.unstamped
  | m => m

theorem isOver_worker (w : Worker) : (k.worker w).isOver = w.isOver := by
  obtain ⟨provider, phase, stats, probed, events, measurements⟩ := w
  cases phase <;> rfl

theorem isOver_batcher (b : Batcher) : (k.batcher b).isOver = b.isOver := by
  obtain ⟨topic, phase, batch, ticker, stats, calls, measurements⟩ := b
  cases phase <;> rfl

theorem allOver_state (s : State) : (k.state s).allOver = s.allOver := by
  have hintake : (k.state s).intake.isOver = s.intake.isOver := rfl
  simp only [State.allOver, hintake]
  simp only [state, PerProvider.all, PerProvider.map, isOver_worker, isOver_batcher]

theorem crash?_state (s : State) (task : Task) : (k.state s).crash? task = s.crash? task := by
  cases task with
  | intake => rfl
  | worker p =>
    have hworker : (k.state s).workers.get p = k.worker (s.workers.get p) :=
      PerProvider.get_map _ _ _
    simp only [State.crash?, hworker, Worker.crash?, worker]
    cases (s.workers.get p).phase <;> rfl
  | batcher =>
    simp only [State.crash?, state, Batcher.crash?, batcher]
    cases s.batcher.phase <;> rfl

theorem drained_state (s : State) (reason : Reason) :
    (k.state s).drained reason = s.drained reason := by
  have hreport : (k.state s).report reason = s.report reason := rfl
  simp only [State.drained, State.failure?_eq, crash?_state, hreport]

/-- The coordinator looks at the stages only to see whether and how they have ended. -/
theorem coordinatorStep?_eq (s : State) (m : State.CoordinatorMove) :
    (k.state s).coordinatorStep? m = (s.coordinatorStep? m).map k.state := by
  have hphase : (k.state s).coordinator.phase = s.coordinator.phase := rfl
  cases m with
  | seeSignal =>
    have hsignalled : (k.state s).signalled = s.signalled := rfl
    simp only [State.coordinatorStep?, hphase, hsignalled]
    cases s.coordinator.phase <;> cases s.signalled <;> rfl
  | seeExit =>
    have hover : (k.state s).intake.isOver = s.intake.isOver := rfl
    simp only [State.coordinatorStep?, hphase, hover]
    cases s.coordinator.phase <;> cases s.intake.isOver <;> rfl
  | finish =>
    simp only [State.coordinatorStep?, hphase, allOver_state, drained_state]
    cases s.coordinator.phase <;> cases s.allOver <;> rfl
  | giveUp =>
    have hnow : (k.state s).now = s.now := rfl
    simp only [State.coordinatorStep?, hphase, allOver_state, hnow]
    cases s.coordinator.phase with
    | draining reason deadline =>
      dsimp only
      split <;> rfl
    | _ => rfl

/-! ## Runs -/

section

variable {s s' t : State} {m m' : State.Move} {ms ms' : List State.Move}

theorem bench_state (s : State) (p : Provider) : (k.state s).bench p = k.bench (s.bench p) := by
  cases p <;> rfl

theorem state_putBench (s : State) (p : Provider) (b : Worker.Bench) :
    k.state (s.putBench p b) = (k.state s).putBench p (k.bench b) := by
  cases p <;> rfl

theorem step?_intake (s : State) (m : Intake.Move) :
    (s.step? (.intake m)).map k.state = ((k.state s).intake.step? (k.intakeMove m)).map
      fun i => { k.state s with intake := i } := by
  rw [show (k.state s).intake = k.intake s.intake from rfl, intake_step?, State.step?,
    Option.map_map, Option.map_map]
  rfl

theorem step?_worker (s : State) (p : Provider) (m : Worker.Move) :
    (s.step? (.worker p m)).map k.state =
      (Worker.step? ((k.state s).bench p) m).map ((k.state s).putBench p) := by
  rw [bench_state, worker_step?, State.step?, Option.map_map, Option.map_map]
  exact congrArg (Option.map · _) (funext fun b => k.state_putBench s p b)

theorem step?_batcher (s : State) {m m' : Batcher.Move} (h : m.unstamped = m'.unstamped) :
    (s.step? (.batcher m)).map k.state = ((Batcher.step? (k.state s).batcherBench m').map
      k.batcherBench).map (k.state s).putBatcherBench := by
  rw [show (k.state s).batcherBench = k.batcherBench s.batcherBench from rfl, k.batcher_step? _ h,
    State.step?, Option.map_map, Option.map_map]
  rfl

/-- Pipelines that look alike make the moves that look alike, and look alike after them. -/
theorem step_congr (hs : k.state s = k.state s') (hm : k.move m = k.move m') :
    (s.step? m).map k.state = (s'.step? m').map k.state := by
  cases m with
  | intake m =>
    cases m' with
    | intake m' =>
      have hmove : k.intakeMove m = k.intakeMove m' := State.Move.intake.inj hm
      rw [step?_intake, step?_intake, hs, hmove]
    | _ => cases hm
  | worker p m =>
    cases m' with
    | worker q m' =>
      cases hm
      rw [step?_worker, step?_worker, hs]
    | _ => cases hm
  | batcher m =>
    cases m' with
    | batcher m' =>
      have hmove : m.unstamped = m'.unstamped := State.Move.batcher.inj hm
      rw [k.step?_batcher s hmove, k.step?_batcher s' rfl, hs]
    | _ => cases hm
  | coordinator m =>
    cases m' with
    | coordinator m' =>
      cases hm
      simp only [State.step?, ← coordinatorStep?_eq, hs]
    | _ => cases hm
  | signal =>
    cases m' with
    | signal => exact congrArg (fun s : State => some { s with signalled := true }) hs
    | _ => cases hm
  | elapse d =>
    cases m' with
    | elapse d' =>
      cases hm
      exact congrArg (fun s : State => some { s with now := s.now + d }) hs
    | _ => cases hm

/-- **Runs that look alike.** What is hidden decides neither which moves can be made nor how the
pipeline looks after them. -/
theorem run (hs : k.state s = k.state s') (hms : ms.map k.move = ms'.map k.move)
    (run : Run s ms t) : ∃ t', Run s' ms' t' ∧ k.state t = k.state t' := by
  induction run generalizing s' ms' with
  | nil s =>
    obtain rfl : ms' = [] := List.map_eq_nil_iff.1 hms.symm
    exact ⟨s', .nil s', hs⟩
  | @cons s u t m ms hm _ ih =>
    cases ms' with
    | nil => cases hms
    | cons m' ms' =>
      obtain ⟨hmove, hrest⟩ := List.cons.inj hms
      have hstep := k.step_congr hs hmove
      rw [hm] at hstep
      obtain ⟨u', hm', hu⟩ := Option.map_eq_some_iff.1 hstep.symm
      obtain ⟨t', run', ht⟩ := ih hu.symm hrest
      exact ⟨t', .cons hm' run', ht⟩

end

/-! ## Histories -/

def request (r : Request) : Request := ⟨k.inbound r.message, r.provider, k.source r.source⟩

def check (x : Check) : Check := ⟨k.request x.request, x.answer⟩

def history (h : History) : History :=
  ⟨h.pulled.map k.inbound, h.routed.map k.request, h.answers, h.entered.map k.check,
    h.stamps.map fun _ => default⟩

theorem requests_history (h : History) (p : Provider) :
    (k.history h).requests p = (h.requests p).map k.request := by
  simp only [History.requests, history, List.filter_map]
  rfl

theorem checks_history (h : History) (p : Provider) :
    (k.history h).checks p = (h.checks p).map k.check := by
  rw [History.checks, requests_history, show (k.history h).answers = h.answers from rfl]
  simp only [History.checks, List.zipWith_map_left, List.map_zipWith]
  rfl

theorem next?_history (h : History) (p : Provider) :
    (k.history h).next? p = (h.next? p).map k.check := by
  have hentered : ((k.history h).enteredOf p).length = (h.enteredOf p).length := by
    simp only [History.enteredOf, history, List.filter_map, List.length_map]
    rfl
  rw [History.next?, checks_history, hentered, List.getElem?_map]
  rfl

theorem request?_history (h : History) (answer : Except Error ResolvedSource) :
    (k.history h).request? (k.answer answer) = (h.request? answer).map k.request := by
  cases answer with
  | error e => rfl
  | ok source =>
    simp only [History.request?, Mask.answer, history, List.getLast?_map, k.providerTag_source]
    cases h.pulled.getLast? with
    | none => rfl
    | some m => cases source.providerTag <;> rfl

theorem note_history (h : History) (m : State.Move) :
    k.history (h.note m) = (k.history h).note (k.move m) := by
  cases m with
  | intake m =>
    cases m with
    | pull m =>
      simp only [move, intakeMove, History.note, history, List.map_append]
      rfl
    | lookup answer =>
      simp only [move, intakeMove, History.note, request?_history]
      simp only [history, List.map_append]
      cases h.request? answer <;> rfl
    | _ => rfl
  | worker p m =>
    cases m with
    | offer =>
      simp only [move, History.note, next?_history]
      simp only [history, List.map_append]
      cases h.next? p <;> rfl
    | _ => rfl
  | batcher m =>
    cases m with
    | receive stamp =>
      simp only [move, Batcher.Move.unstamped, History.note, history, List.map_append]
      rfl
    | _ => rfl
  | _ => rfl

/-- The history of hidden moves is the hidden history. -/
theorem history_of (ms : List State.Move) : k.history (.of ms) = .of (ms.map k.move) := by
  have hfold : ∀ h : History,
      k.history (ms.foldl History.note h) = (ms.map k.move).foldl History.note (k.history h) := by
    induction ms with
    | nil => exact fun _ => rfl
    | cons m ms ih =>
      intro h
      rw [List.foldl_cons, ih, note_history, List.map_cons, List.foldl_cons]
  exact hfold .empty

end Mask

end Availability.Flow
