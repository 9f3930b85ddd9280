import Availability.Proofs.Pipeline.History
import Availability.Proofs.Sequences

/-!
# A provider's line

Where the requests of one provider are: checked, in the worker's hands, or waiting. A request goes
to the end of the line when the router has it in hand, and the worker takes from the front, so the
results come out in the order of the requests.

* `Line`: the line of a provider; `Line.offer_next`: the result that a worker holds is that of the
  check which enters the result queue next.
* `Run.lined`: every provider's line, at every moment of every run.
-/

namespace Availability.Flow

def Worker.probing (w : Worker) : List ResolvedSource :=
  match w.phase with
  | .probing source => [source]
  | _ => []

def Worker.offering (w : Worker) : List ProbeResult :=
  match w.phase with
  | .offering r => [r]
  | _ => []

/-- The source that the router holds for a provider, if it does. -/
def Router.holding (r : Router) (p : Provider) : List ResolvedSource :=
  match r.current with
  | some (.sending q source) => if q = p then [source] else []
  | _ => []

/-- Where the requests of a provider are, when `waiting` are those that its worker has not taken.
As long as the result queue is `whole`, none of their results is lost. -/
structure Line (h : History) (p : Provider) (w : Worker) (waiting : List ResolvedSource)
    (whole : Prop) : Prop where
  answered_le : (h.answers.get p).length ≤ (h.requests p).length
  unanswered : w.isCrashed = false →
    ((h.requests p).drop (h.answers.get p).length).map Request.source = w.probing ++ waiting
  probed : w.isCrashed = false → w.probed =
    ((h.requests p).take ((h.answers.get p).length + w.probing.length)).map
      (·.source.authentication)
  processed : w.stats.processed = (h.answers.get p).length
  /-- A worker that has ended has nothing left to do. -/
  ended : w.phase = .ended → (h.requests p).length ≤ (h.answers.get p).length
  entered : h.enteredOf p <+: h.checks p
  offered : whole →
    (h.checks p).map Check.result = (h.enteredOf p).map Check.result ++ w.offering
  lost : whole → w.stats.lost = 0

namespace Line

variable {h h' : History} {p : Provider} {w : Worker} {waiting : List ResolvedSource}
  {whole whole' : Prop}

theorem congr (line : Line h p w waiting whole) (hreq : h'.requests p = h.requests p)
    (hans : h'.answers.get p = h.answers.get p) (hent : h'.enteredOf p = h.enteredOf p)
    (hwhole : whole' → whole) : Line h' p w waiting whole' := by
  have hchecks : h'.checks p = h.checks p := by simp only [History.checks, hreq, hans]
  obtain ⟨hle, hun, hprobed, hproc, hended, hprefix, hoff, hlost⟩ := line
  constructor
  · rw [hans, hreq]; exact hle
  · rw [hans, hreq]; exact hun
  · rw [hans, hreq]; exact hprobed
  · rw [hans]; exact hproc
  · rw [hans, hreq]; exact hended
  · rw [hent, hchecks]; exact hprefix
  · rw [hent, hchecks]; exact fun hw => hoff (hwhole hw)
  · exact fun hw => hlost (hwhole hw)

theorem route (line : Line h p w waiting whole) {r : Request} (hgoing : w.phase ≠ .ended)
    (hreq : h'.requests p = h.requests p ++ [r]) (hans : h'.answers.get p = h.answers.get p)
    (hent : h'.enteredOf p = h.enteredOf p) : Line h' p w (waiting ++ [r.source]) whole := by
  obtain ⟨hle, hun, hprobed, hproc, hended, hprefix, hoff, hlost⟩ := line
  have hchecks : h'.checks p = h.checks p := by
    simp only [History.checks, hreq, hans]
    exact zipWith_append_left _ _ hle
  constructor
  · rw [hans, hreq, List.length_append]
    exact Nat.le_add_right_of_le hle
  · intro hcalm
    rw [hans, hreq, List.drop_append_of_le_length hle, List.map_append, hun hcalm,
      List.append_assoc]
    rfl
  · intro hcalm
    have hbound : (h.answers.get p).length + w.probing.length ≤ (h.requests p).length := by
      have hlen := congrArg List.length (hun hcalm)
      simp only [List.length_map, List.length_drop, List.length_append] at hlen
      omega
    rw [hans, hreq, List.take_append_of_le_length hbound]
    exact hprobed hcalm
  · rw [hans]; exact hproc
  · exact fun h => absurd h hgoing
  · rw [hent, hchecks]; exact hprefix
  · rw [hent, hchecks]; exact hoff
  · exact hlost

theorem take {source : ResolvedSource} (line : Line h p w (source :: waiting) whole)
    (hphase : w.phase = .waiting) : Line h p (w.begin source) waiting whole := by
  obtain ⟨hle, hun, hprobed, hproc, hended, hprefix, hoff, hlost⟩ := line
  have hcalm : w.isCrashed = false := by simp [Worker.isCrashed, hphase]
  have hnone : w.probing = [] := by simp [Worker.probing, hphase]
  rw [hnone] at hun hprobed
  -- what waits longest is the first request without an answer
  obtain ⟨r, rest, hdrop, hsource, -⟩ := List.map_eq_cons_iff.1 (hun hcalm)
  refine ⟨hle, fun _ => hun hcalm, fun _ => ?_, hproc, (by simp [Worker.begin]), hprefix,
    fun hw => ?_, hlost⟩
  · have hlt := length_lt_of_drop_eq_cons hdrop
    have hget : (h.requests p)[(h.answers.get p).length]? = some r := by
      rw [← List.head?_drop, hdrop]
      rfl
    show w.probed ++ [source.authentication] = _
    rw [hprobed hcalm]
    simp only [List.length_nil, Nat.add_zero, Worker.probing, Worker.begin, List.length_singleton]
    rw [List.take_add_one, hget, List.map_append]
    simp [hsource]
  · rw [hoff hw]
    simp [Worker.offering, Worker.begin, hphase]

theorem probe {source : ResolvedSource} (line : Line h p w waiting whole)
    (hphase : w.phase = .probing source) {answer : Except Error Unit}
    (hreq : h'.requests p = h.requests p)
    (hans : h'.answers.get p = h.answers.get p ++ [answer])
    (hent : h'.enteredOf p = h.enteredOf p) :
    Line h' p (w.record (Worker.resultOf source answer)) waiting whole := by
  obtain ⟨hle, hun, hprobed, hproc, hended, hprefix, hoff, hlost⟩ := line
  have hcalm : w.isCrashed = false := by simp [Worker.isCrashed, hphase]
  have hone : w.probing = [source] := by simp [Worker.probing, hphase]
  rw [hone] at hun hprobed
  obtain ⟨r, rest, hdrop, hsource, hrest⟩ := List.map_eq_cons_iff.1 (hun hcalm)
  have hlt := length_lt_of_drop_eq_cons hdrop
  have hchecks : h'.checks p = h.checks p ++ [⟨r, answer⟩] := by
    simp only [History.checks, hreq, hans]
    exact zipWith_snoc_right _ answer hdrop
  constructor
  · rw [hans, hreq, List.length_append]
    exact hlt
  · intro _
    rw [hans, hreq, List.length_append, List.length_singleton, drop_succ_of_drop_eq_cons hdrop,
      hrest]
    rfl
  · intro _
    rw [hans, hreq, List.length_append]
    exact hprobed hcalm
  · rw [hans, List.length_append, ← hproc]
    rfl
  · simp [Worker.record]
  · rw [hent, hchecks]
    exact hprefix.trans (List.prefix_append _ _)
  · intro hw
    have hnone : w.offering = [] := by simp [Worker.offering, hphase]
    rw [hent, hchecks, List.map_append, hoff hw, hnone, List.append_nil, ← hsource]
    rfl
  · exact hlost

/-- The result that a worker holds is that of the check which enters the result queue next. -/
theorem offer_next {r : ProbeResult} (line : Line h p w waiting whole)
    (hphase : w.phase = .offering r) (hw : whole) :
    ∃ k, h.next? p = some k ∧ k.result = r ∧ h.checks p = h.enteredOf p ++ [k] := by
  obtain ⟨rest, hrest⟩ := line.entered
  have hoff := line.offered hw
  rw [show w.offering = [r] by simp [Worker.offering, hphase], ← hrest, List.map_append,
    List.append_cancel_left_eq] at hoff
  obtain ⟨k, rfl, hk⟩ := List.map_eq_singleton_iff.1 hoff
  refine ⟨k, ?_, hk, hrest.symm⟩
  rw [History.next?, ← hrest]
  simp

/-- The worker is rid of the result that it holds, which is lost only if the queue is not whole. -/
theorem offer {r : ProbeResult} (line : Line h p w waiting whole) (hphase : w.phase = .offering r)
    {w' : Worker} (hreq : h'.requests p = h.requests p)
    (hans : h'.answers.get p = h.answers.get p)
    (hent : h'.enteredOf p = h.enteredOf p ++ (h.next? p).toList)
    (hphase' : w'.phase = .waiting) (hprobed' : w'.probed = w.probed)
    (hproc' : w'.stats.processed = w.stats.processed)
    (hlost' : whole → w'.stats.lost = w.stats.lost) : Line h' p w' waiting whole := by
  have hnext := fun hw => line.offer_next hphase hw
  obtain ⟨hle, hun, hprobed, hproc, -, hprefix, hoff, hlost⟩ := line
  have hchecks : h'.checks p = h.checks p := by simp only [History.checks, hreq, hans]
  have hcalm : w.isCrashed = false := by simp [Worker.isCrashed, hphase]
  have hnone : w.probing = [] := by simp [Worker.probing, hphase]
  have hnone' : w'.probing = [] := by simp [Worker.probing, hphase']
  constructor
  · rw [hans, hreq]; exact hle
  · rw [hans, hreq, hnone', ← hnone]; exact fun _ => hun hcalm
  · rw [hans, hreq, hprobed', hnone', ← hnone]; exact fun _ => hprobed hcalm
  · rw [hans, hproc']; exact hproc
  · simp [hphase']
  · rw [hent, hchecks]
    exact prefix_snoc_getElem? hprefix
  · intro hw
    obtain ⟨k, hk, -, hall⟩ := hnext hw
    rw [hent, hk, hchecks, hall, Option.toList_some]
    simp [Worker.offering, hphase']
  · exact fun hw => (hlost' hw).trans (hlost hw)

/-- What waits for a worker that crashed does not matter. -/
theorem crash {waiting' : List ResolvedSource} (line : Line h p w waiting whole)
    {w' : Worker} (hcrashed : w'.isCrashed = true) (hoffering : w'.offering = w.offering)
    (hstats : w'.stats = w.stats) : Line h p w' waiting' whole := by
  obtain ⟨hle, -, -, hproc, -, hprefix, hoff, hlost⟩ := line
  refine ⟨hle, by simp [hcrashed], by simp [hcrashed], hstats ▸ hproc, fun hended => ?_, hprefix,
    hoffering ▸ hoff, hstats ▸ hlost⟩
  simp [Worker.isCrashed, hended] at hcrashed

theorem finish (line : Line h p w [] whole) (hphase : w.phase = .waiting) :
    Line h p (w.turn .ended) [] whole := by
  obtain ⟨hle, hun, hprobed, hproc, -, hprefix, hoff, hlost⟩ := line
  have hcalm : w.isCrashed = false := by simp [Worker.isCrashed, hphase]
  have hnone : w.probing = [] := by simp [Worker.probing, hphase]
  rw [hnone] at hun hprobed
  refine ⟨hle, fun _ => hun hcalm, fun _ => hprobed hcalm, hproc, fun _ => ?_, hprefix,
    fun hw => ?_, hlost⟩
  · have hrest := hun hcalm
    rw [List.append_nil, List.map_eq_nil_iff, List.drop_eq_nil_iff] at hrest
    exact hrest
  · rw [hoff hw]
    simp [Worker.offering, Worker.turn, hphase]

end Line

/-! ## Every line, in every run -/

namespace State

/-- The sources that wait for a worker: those in its queue, and the one in the router's hand. -/
def awaiting (s : State) (p : Provider) : List ResolvedSource :=
  (s.queue p).items ++ s.intake.router.holding p

/-- Every provider's line. Without a crash of the batcher the result queue refuses nothing. -/
def Lined (h : History) (s : State) : Prop :=
  ∀ p, Line h p (s.workers.get p) (s.awaiting p) (s.batcher.isCrashed = false)

variable {h : History} {s t : State}

theorem lined_start (c : Settings) : Lined .empty (start c) := by
  intro p
  cases p <;> exact ⟨Nat.le_refl _, fun _ => rfl, fun _ => rfl, rfl, (fun h => by cases h),
    List.prefix_refl _, fun _ => rfl, fun _ => rfl⟩

theorem Lined.congr {h' : History} (lined : Lined h s) (hrouted : h'.routed = h.routed)
    (hanswers : h'.answers = h.answers) (hentered : h'.entered = h.entered)
    (hworkers : t.workers = s.workers) (hawaiting : ∀ p, t.awaiting p = s.awaiting p)
    (hbatcher : t.batcher.isCrashed = false → s.batcher.isCrashed = false) : Lined h' t := by
  intro p
  rw [hworkers, hawaiting p]
  refine (lined p).congr ?_ (congrArg (·.get p) hanswers) ?_ hbatcher
  · simp only [History.requests, hrouted]
  · simp only [History.enteredOf, hentered]

theorem Lined.route (lined : Lined h s) (wired : Wired s) {request : SourceRequest}
    {identity : Principal} {p : Provider} {source : ResolvedSource}
    (hrunning : s.intake.phase = .running)
    (hcurrent : s.intake.router.current = some (.resolving request identity))
    {m : InboundMessage} (hlast : h.pulled.getLast? = some m)
    (htag : source.providerTag = .known p) :
    Lined (h.note (.intake (.lookup (.ok source))))
      { s with intake := s.intake.hold (.sending p source) } := by
  have hrouted : (h.note (.intake (.lookup (.ok source)))).routed =
      h.routed ++ [⟨m, p, source⟩] := by
    simp [History.note, h.request?_of_known hlast htag]
  intro q
  by_cases hqp : q = p
  · subst hqp
    have hawaiting : awaiting { s with intake := s.intake.hold (.sending q source) } q =
        s.awaiting q ++ [source] := by
      simp [awaiting, queue, Intake.hold, Router.holding, hcurrent]
    rw [hawaiting]
    refine (lined q).route (r := ⟨m, q, source⟩) (fun hended => ?_) ?_ rfl rfl
    · have hover := wired.worker_ended q hended
      simp [Intake.isOver, hrunning] at hover
    · simp [History.requests, hrouted]
  · have hawaiting : awaiting { s with intake := s.intake.hold (.sending p source) } q =
        s.awaiting q := by
      simp [awaiting, queue, Intake.hold, Router.holding, hcurrent, Ne.symm hqp]
    rw [hawaiting]
    refine (lined q).congr ?_ rfl rfl id
    simp [History.requests, hrouted, Ne.symm hqp]

theorem awaiting_enqueue {p : Provider} {source : ResolvedSource}
    (hcurrent : s.intake.router.current = some (.sending p source)) (q : Provider) :
    awaiting { s with intake := s.intake.enqueue p source } q = s.awaiting q := by
  have hqueue : ({ s with intake := s.intake.enqueue p source } : State).queue q =
      (s.intake.router.queues.set p ((s.queue p).push source)).get q := rfl
  have hafter : (s.intake.enqueue p source).router.holding q = [] := rfl
  rw [awaiting, hqueue, hafter]
  by_cases hqp : q = p
  · subst hqp
    simp [awaiting, Router.holding, hcurrent]
  · rw [PerProvider.get_set_other _ _ hqp]
    simp [awaiting, queue, Router.holding, hcurrent, Ne.symm hqp]

theorem awaiting_finish {phase : IntakePhase} (hhand : ∀ p, s.intake.router.holding p = [])
    (p : Provider) : awaiting { s with intake := s.intake.finish phase } p = s.awaiting p := by
  have hqueue : ({ s with intake := s.intake.finish phase } : State).queue p =
      (s.queue p).dropSender := PerProvider.get_map _ _ _
  rw [awaiting, hqueue, awaiting, hhand p]
  rfl

/-- **The lines are kept** by every move of the intake. -/
theorem Lined.intake (lined : Lined h s) (wired : Wired s)
    (ledger : Ledger h s.intake (∀ p, (s.workers.get p).isCrashed = false)) {m : Intake.Move}
    {i : Intake} (hstep : Intake.Step s.intake m i) :
    Lined (h.note (.intake m)) { s with intake := i } := by
  cases hstep with
  | malformed hready =>
    have hnone := (Intake.phase_of_isListening hready).2
    refine lined.congr rfl rfl rfl rfl (fun p => ?_) id
    simp [awaiting, queue, Intake.settle, Router.settle, Router.holding, hnone]
  | asked hready =>
    have hnone := (Intake.phase_of_isListening hready).2
    refine lined.congr rfl rfl rfl rfl (fun p => ?_) id
    simp [awaiting, queue, Router.proceed, Router.holding, hnone]
  | streamEnded hready =>
    have hnone := (Intake.phase_of_isListening hready).2
    exact lined.congr rfl rfl rfl rfl (awaiting_finish (by simp [Router.holding, hnone])) id
  | stopped hready =>
    have hnone := (Intake.phase_of_isListening hready).2
    exact lined.congr rfl rfl rfl rfl (awaiting_finish (by simp [Router.holding, hnone])) id
  | dropped _ hcurrent hfinished =>
    refine lined.congr ?_ rfl rfl rfl (fun p => ?_) id
    · simp [History.note, h.request?_of_dropped hfinished]
    · simp [awaiting, queue, Intake.settle, Router.settle, Router.holding, hcurrent]
  | resolved hrunning hcurrent htag =>
    obtain ⟨m, hlast, -⟩ := ledger.asked _ _ hcurrent
    exact lined.route wired hrunning hcurrent hlast htag
  | crashed _ hcurrent =>
    exact lined.congr rfl rfl rfl rfl (awaiting_finish (by simp [Router.holding, hcurrent])) id
  | entered _ hcurrent => exact lined.congr rfl rfl rfl rfl (awaiting_enqueue hcurrent) id
  | @refused p source hrunning hcurrent hclosed =>
    intro q
    by_cases hqp : q = p
    · -- the queue of a worker at work is open, so the worker has crashed
      subst hqp
      refine (lined q).crash (eq_true_of_ne_false fun hcalm => ?_) rfl rfl
      have hopen := wired.queue_open hcalm (by simp [Intake.isOver, hrunning])
      rw [show (s.queue q).receiving = false from hclosed] at hopen
      cases hopen
    · have hawaiting : awaiting { s with intake := s.intake.settle s.intake.router .queueClosed } q
          = s.awaiting q := by
        simp [awaiting, queue, Intake.settle, Router.settle, Router.holding, hcurrent, Ne.symm hqp]
      rw [hawaiting]
      exact (lined q).congr rfl rfl rfl id

theorem Lined.putBench {h' : History} {p : Provider} {b : Worker.Bench} (lined : Lined h s)
    (line : Line h' p b.worker (b.inbox.items ++ s.intake.router.holding p)
      (s.batcher.isCrashed = false))
    (hrouted : h'.routed = h.routed) (hanswers : ∀ q, q ≠ p → h'.answers.get q = h.answers.get q)
    (hentered : ∀ q, q ≠ p → h'.enteredOf q = h.enteredOf q) : Lined h' (s.putBench p b) := by
  refine forall_putBench s b (P := fun q queue worker => Line h' q worker
    (queue.items ++ s.intake.router.holding q) (s.batcher.isCrashed = false)) line
    fun q hqp => ?_
  refine (lined q).congr ?_ (hanswers q hqp) (hentered q hqp) id
  simp only [History.requests, hrouted]

/-- **The lines are kept** by every move of a worker. -/
theorem Lined.worker (lined : Lined h s) (wired : Wired s)
    (ledger : Ledger h s.intake (∀ p, (s.workers.get p).isCrashed = false)) {p : Provider}
    {m : Worker.Move} {b : Worker.Bench} (hstep : Worker.Step (s.bench p) m b) :
    Lined (h.note (.worker p m)) (s.putBench p b) := by
  have line := lined p
  cases hstep with
  | took hphase hitems =>
    rw [awaiting, show (s.queue p).items = _ from hitems] at line
    exact lined.putBench (line.take hphase) rfl (fun _ _ => rfl) fun _ _ => rfl
  | @probed source answer hphase =>
    refine lined.putBench (line.probe hphase rfl ?_ rfl) rfl (fun q hqp => ?_) fun _ _ => rfl
    · simp [History.note]
    · exact PerProvider.get_set_other _ _ hqp
  | crashed hphase =>
    refine lined.putBench (line.crash rfl ?_ rfl) rfl (fun _ _ => rfl) fun _ _ => rfl
    have hnone : (s.workers.get p).offering = [] := by
      simp [Worker.offering, show (s.workers.get p).phase = _ from hphase]
    exact hnone.symm
  | @entered r hphase hopen hroom =>
    refine lined.putBench (line.offer hphase rfl rfl ?_ rfl rfl rfl fun _ => rfl) rfl
      (fun _ _ => rfl) fun q hqp => ?_
    · simp [History.enteredOf_offer]
    · simp [History.enteredOf_offer, hqp]
  | @refused r hphase hclosed =>
    refine lined.putBench (line.offer hphase rfl rfl ?_ rfl rfl rfl fun hcalm => ?_) rfl
      (fun _ _ => rfl) fun q hqp => ?_
    · simp [History.enteredOf_offer]
    · have hopen := wired.results_receiving
      rw [hcalm, show s.results.receiving = false from hclosed] at hopen
      cases hopen
    · simp [History.enteredOf_offer, hqp]
  | finished hphase hend =>
    obtain ⟨hitems, hsenders⟩ : (s.queue p).items = [] ∧ (s.queue p).senders = 0 := by
      simpa [Queue.atEnd, bench] using hend
    have hover : s.intake.isOver = true := by
      rw [wired.queue_senders] at hsenders
      by_cases hover : s.intake.isOver = true
      · exact hover
      · simp [hover] at hsenders
    have hhand : s.intake.router.holding p = [] := by simp [Router.holding, ledger.emptied hover]
    rw [awaiting, hitems, hhand] at line
    have hdone := line.finish hphase
    refine lined.putBench ?_ rfl (fun _ _ => rfl) fun _ _ => rfl
    rw [hhand]
    exact hdone

end State

open State

/-- **Every provider's line**, at every moment of every run. -/
theorem Run.lined {c : Settings} {ms : List State.Move} {s : State}
    (run : Run (State.start c) ms s) : Lined (.of ms) s := by
  refine run.induction (motive := fun ms s => Lined (.of ms) s) (lined_start c)
    fun ms s m t run ih hm => ?_
  rw [History.of_snoc]
  have hstep := step_of_step? hm
  cases hstep with
  | intake hi => exact ih.intake run.wired run.ledger hi
  | worker hb => exact ih.worker run.wired run.ledger hb
  | batcher hb =>
    have hcalm : s.batcher.isCrashed = false := Batcher.isCrashed_of_at_work hb.at_work
    cases hb <;> exact ih.congr rfl rfl rfl rfl (fun _ => rfl) fun _ => hcalm
  | coordinator hc =>
    obtain ⟨_, _, rfl⟩ := coordinatorStep?_frame hc
    exact ih.congr rfl rfl rfl rfl (fun _ => rfl) id
  | signal => exact ih.congr rfl rfl rfl rfl (fun _ => rfl) id
  | elapse => exact ih.congr rfl rfl rfl rfl (fun _ => rfl) id

end Availability.Flow
