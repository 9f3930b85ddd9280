import Availability.Proofs.Pipeline.Draining
import Availability.Proofs.Sequences

/-!
# Any run of a worker

A worker at its bench with everything that can happen to it: sources that are put into its queue,
senders that let go of it, probes that come back, a consumer that takes results away at its own
pace or lets go of the result queue. `Journal` tells what a run has brought.

* `Kept`: what the worker is doing, what it has counted and what it has told, against the sources
  that arrived and the answers of their probes.
* `Passed`: what the result queue took of the results, and what the consumer took of it.
* `Run.serving`: one result for each source, whatever happens to it.
-/

namespace Availability.Flow.Worker

/-- What can happen to a worker at its bench. -/
inductive Event where
  | own (m : Move)
  /-- A source is put into the queue. -/
  | put (source : ResolvedSource)
  /-- A sender lets go of the queue. -/
  | hangUp
  /-- The consumer takes a result away. -/
  | receive
  /-- The consumer lets go of the result queue. -/
  | closeResults

/-- Lets an event happen, if it can. A queue that every sender has let go of gets no more
sources. -/
def Bench.event? (b : Bench) : Event → Option Bench
  | .own m => step? b m
  | .put source =>
    if b.inbox.senders = 0 then none
    else
      match b.inbox.offer source with
      | .entered q => some { b with inbox := q }
      | _ => none
  | .hangUp =>
    if b.inbox.senders = 0 then none else some { b with inbox := b.inbox.dropSender }
  | .receive =>
    match b.outbox.pop? with
    | some (_, q) => some { b with outbox := q }
    | none => none
  | .closeResults => some { b with outbox := b.outbox.close }

/-- What a run has brought. -/
structure Journal where
  /-- The sources that were put into the queue. -/
  arrived : List ResolvedSource
  /-- What the probes said. -/
  answers : List (Except Error Unit)
  /-- The results that the result queue took. -/
  accepted : List ProbeResult
  /-- Those of them that the consumer took away. -/
  collected : List ProbeResult

/-- The result that a source gets by the answer of its probe. -/
def verdictOn (source : ResolvedSource) : Except Error Unit → ProbeResult
  | .ok () => ⟨source.applicationId, source.identity, "Application", .available, none⟩
  | .error e =>
    ⟨source.applicationId, source.identity, "Application", .unavailable, some e.message⟩

theorem resultOf_eq (source : ResolvedSource) (answer : Except Error Unit) :
    resultOf source answer = verdictOn source answer := by
  cases answer <;> rfl

namespace Journal

def empty : Journal := ⟨[], [], [], []⟩

/-- All results: that of the first source by the first answer, and so on. -/
def results (j : Journal) : List ProbeResult := List.zipWith verdictOn j.arrived j.answers

/-- The journal after one more event, from `b` to `b'`. -/
def note (j : Journal) (b : Bench) (e : Event) (b' : Bench) : Journal :=
  match e with
  | .put source => { j with arrived := j.arrived ++ [source] }
  | .own (.probed answer) => { j with answers := j.answers ++ [answer] }
  | .own .offer =>
    { j with accepted := j.accepted ++ b'.outbox.items.drop b.outbox.items.length }
  | .receive => { j with collected := j.collected ++ b.outbox.items.head?.toList }
  | _ => j

end Journal

/-- A worker that has not done anything yet, with room for `c` sources that `n` senders may put into
its queue, and for `d` results. -/
def Bench.start (p : Provider) (c n d : Nat) : Bench := ⟨idle p, .bounded c n, .bounded d 1⟩

/-- The runs of a worker whose probes all come back. -/
inductive Run (start : Bench) : Bench → Journal → Prop where
  | nil : Run start start .empty
  | snoc {b b' : Bench} {j : Journal} {e : Event} :
      Run start b j → (∀ text, e ≠ .own (.crash text)) → b.event? e = some b' →
      Run start b' (j.note b e b')

/-! ## The events -/

/-- All that an event can do. -/
inductive Happens (b : Bench) : Event → Bench → Prop where
  | own {m : Move} {b' : Bench} : Step b m b' → Happens b (.own m) b'
  | arrived {source : ResolvedSource} :
      b.inbox.senders ≠ 0 → Happens b (.put source) { b with inbox := b.inbox.push source }
  | hungUp : Happens b .hangUp { b with inbox := b.inbox.dropSender }
  | received {r : ProbeResult} {rest : List ProbeResult} :
      b.outbox.items = r :: rest →
      Happens b .receive { b with outbox := { b.outbox with items := rest } }
  | closed : Happens b .closeResults { b with outbox := b.outbox.close }

theorem happens_of_event? {b b' : Bench} {e : Event} (h : b.event? e = some b') :
    Happens b e b' := by
  cases e with
  | own m => exact .own (step_of_step? h)
  | put source =>
    simp only [Bench.event?] at h
    split at h
    · cases h
    · next hsenders =>
      split at h
      · next q hq =>
        obtain ⟨-, -, rfl⟩ := (Queue.offer_entered_iff _ _ _).1 hq
        cases h
        exact .arrived hsenders
      · cases h
  | hangUp =>
    simp only [Bench.event?] at h
    split at h
    · cases h
    · cases h
      exact .hungUp
  | receive =>
    simp only [Bench.event?] at h
    split at h
    · next r q hpop =>
      have hitems := Queue.items_pop? hpop
      simp only [Queue.pop?, hitems, Option.some.injEq, Prod.mk.injEq, true_and] at hpop
      cases h
      rw [← hpop]
      exact .received hitems
    · cases h
  | closeResults =>
    cases h
    exact .closed

/-! ## What the worker has done -/

/-- The source whose probe is under way. -/
def probing? (w : Worker) : Option ResolvedSource :=
  match w.phase with
  | .probing source => some source
  | _ => none

/-- The result that waits for room. -/
def offering? (w : Worker) : Option ProbeResult :=
  match w.phase with
  | .offering r => some r
  | _ => none

/-- The worker against the sources that arrived and the answers of their probes. After the sources
that were answered comes the one that is probed, and then those in the queue. -/
structure Kept (b : Bench) (j : Journal) : Prop where
  ahead : j.answers.length ≤ j.arrived.length
  line : j.arrived.drop j.answers.length = b.worker.probing?.toList ++ b.inbox.items
  probed : b.worker.probed =
    (j.arrived.take j.answers.length ++ b.worker.probing?.toList).map ResolvedSource.authentication
  events : b.worker.events = j.results.map ProbeResult.status
  processed : b.worker.stats.processed = j.answers.length
  unavailable : b.worker.stats.unavailable = j.answers.countP (!·.isOk)
  atEnd : b.worker.phase = .ended → b.inbox.senders = 0 ∧ b.inbox.items = []

namespace Kept

variable {b b' : Bench} {j : Journal} {e : Event} {source : ResolvedSource}

theorem start (p : Provider) (c n d : Nat) : Kept (.start p c n d) .empty := by
  constructor <;> simp [Bench.start, idle, Journal.empty, Journal.results, probing?, Queue.bounded]

theorem results_answered {rest : List ResolvedSource}
    (hline : j.arrived.drop j.answers.length = source :: rest) (answer : Except Error Unit) :
    { j with answers := j.answers ++ [answer] }.results =
      j.results ++ [resultOf source answer] := by
  rw [resultOf_eq]
  exact zipWith_snoc_right _ _ hline

/-- A probe comes back. -/
theorem answer (kept : Kept b j) (hphase : b.worker.phase = .probing source)
    (answer : Except Error Unit) :
    Kept { b with worker := b.worker.record (resultOf source answer) }
      { j with answers := j.answers ++ [answer] } := by
  obtain ⟨-, hline, hprobed, hevents, hprocessed, hunavailable, -⟩ := kept
  simp only [probing?, hphase, Option.toList_some, List.singleton_append] at hline hprobed
  refine ⟨?_, ?_, ?_, ?_, ?_, ?_, by rintro ⟨⟩⟩
  · rw [List.length_append, List.length_singleton]
    exact length_lt_of_drop_eq_cons hline
  · rw [List.length_append, List.length_singleton, drop_succ_of_drop_eq_cons hline]
    rfl
  · rw [List.length_append, List.length_singleton, take_succ_of_drop_eq_cons hline]
    simpa [record, probing?] using hprobed
  · rw [results_answered hline, List.map_append, ← hevents]
    rfl
  · rw [List.length_append, ← hprocessed]
    rfl
  · rw [List.countP_append, ← hunavailable]
    cases answer <;> rfl

theorem step (kept : Kept b j) (hevent : Happens b e b')
    (hcalm : ∀ text, e ≠ .own (.crash text)) : Kept b' (j.note b e b') := by
  have hall := kept
  obtain ⟨hahead, hline, hprobed, hevents, hprocessed, hunavailable, hatEnd⟩ := kept
  cases hevent with
  | own hstep =>
    cases hstep with
    | took hphase hitems =>
      simp only [probing?, hphase, hitems, Option.toList_none, List.nil_append,
        List.append_nil] at hline hprobed
      refine ⟨hahead, hline, ?_, hevents, hprocessed, hunavailable, by rintro ⟨⟩⟩
      simp [Journal.note, begin, probing?, hprobed]
    | probed hphase => exact hall.answer hphase _
    | crashed => exact absurd rfl (hcalm _)
    | entered hphase =>
      simp only [probing?, hphase] at hline hprobed
      exact ⟨hahead, hline, hprobed, hevents, hprocessed, hunavailable, by rintro ⟨⟩⟩
    | refused hphase =>
      simp only [probing?, hphase] at hline hprobed
      exact ⟨hahead, hline, hprobed, hevents, hprocessed, hunavailable, by rintro ⟨⟩⟩
    | finished hphase hend =>
      simp only [Queue.atEnd, Bool.and_eq_true, List.isEmpty_iff, beq_iff_eq] at hend
      simp only [probing?, hphase, hend.1] at hline hprobed
      exact ⟨hahead, hline, hprobed, hevents, hprocessed, hunavailable,
        fun _ => ⟨hend.2, rfl⟩⟩
  | @arrived source hsenders =>
    -- what arrives comes after all that was answered, so it meets no answer yet
    refine ⟨?_, ?_, ?_, ?_, hprocessed, hunavailable,
      fun hended => absurd (hatEnd hended).1 hsenders⟩
    · exact Nat.le_trans hahead (by simp [Journal.note])
    · simp only [Journal.note, Queue.items_push]
      rw [List.drop_append_of_le_length hahead, hline, List.append_assoc]
    · simp only [Journal.note]
      rw [List.take_append_of_le_length hahead]
      exact hprobed
    · rw [hevents, Journal.results, Journal.results]
      exact congrArg _ (zipWith_append_left _ _ hahead).symm
  | hungUp =>
    refine ⟨hahead, hline, hprobed, hevents, hprocessed, hunavailable, fun hended => ?_⟩
    obtain ⟨hsenders, hitems⟩ := hatEnd hended
    exact ⟨by simp [Queue.dropSender, hsenders], hitems⟩
  | received => exact ⟨hahead, hline, hprobed, hevents, hprocessed, hunavailable, hatEnd⟩
  | closed => exact ⟨hahead, hline, hprobed, hevents, hprocessed, hunavailable, hatEnd⟩

end Kept

/-! ## What became of the results -/

/-- The results against those that the result queue took, and those against what the consumer took
away. -/
structure Passed (d : Nat) (b : Bench) (j : Journal) : Prop where
  whole : b.outbox.receiving = true → j.accepted ++ b.worker.offering?.toList = j.results
  accepted : j.accepted <+: j.results
  lost : j.accepted.length + b.worker.stats.lost + b.worker.offering?.toList.length =
    j.results.length
  contents : b.outbox.receiving = true → j.collected ++ b.outbox.items = j.accepted
  collected : j.collected <+: j.accepted
  emptied : b.outbox.receiving = false → b.outbox.items = []
  capacity : b.outbox.capacity = d

namespace Passed

variable {b b' : Bench} {j : Journal} {e : Event} {d : Nat}

theorem start (p : Provider) (c n d : Nat) : Passed d (.start p c n d) .empty := by
  constructor <;>
    simp [Bench.start, idle, Journal.empty, Journal.results, offering?, Queue.bounded]

/-- A probe comes back. -/
theorem answer (passed : Passed d b j) (kept : Kept b j) {source : ResolvedSource}
    (hphase : b.worker.phase = .probing source) (answer : Except Error Unit) :
    Passed d { b with worker := b.worker.record (resultOf source answer) }
      { j with answers := j.answers ++ [answer] } := by
  obtain ⟨hwhole, haccepted, hlost, hcontents, hcollected, hemptied, hcapacity⟩ := passed
  have hline := kept.line
  simp only [probing?, hphase, Option.toList_some, List.singleton_append] at hline
  have hresults := Kept.results_answered hline answer
  simp only [offering?, hphase, Option.toList_none, List.append_nil, List.length_nil,
    Nat.add_zero] at hwhole hlost
  refine ⟨fun hopen => ?_, ?_, ?_, hcontents, hcollected, hemptied, hcapacity⟩
  · rw [hresults, ← hwhole hopen]
    rfl
  · rw [hresults]
    exact haccepted.trans (List.prefix_append _ _)
  · rw [hresults, List.length_append, ← hlost]
    rfl

/-- The result queue takes the result. -/
theorem enter (passed : Passed d b j) {r : ProbeResult} (hphase : b.worker.phase = .offering r)
    (hopen : b.outbox.receiving = true) :
    Passed d { b with worker := b.worker.turn .waiting, outbox := b.outbox.push r }
      { j with accepted := j.accepted ++ [r] } := by
  obtain ⟨hwhole, -, hlost, hcontents, hcollected, -, hcapacity⟩ := passed
  simp only [offering?, hphase, Option.toList_some, List.length_singleton] at hwhole hlost
  refine ⟨fun _ => ?_, ?_, ?_, fun _ => ?_, ?_, fun hclosed => ?_, hcapacity⟩
  · simp only [offering?, turn, Option.toList_none, List.append_nil]
    exact hwhole hopen
  · exact hwhole hopen ▸ List.prefix_refl (j.accepted ++ [r])
  · show (j.accepted ++ [r]).length + b.worker.stats.lost + 0 = j.results.length
    rw [List.length_append, List.length_singleton]
    omega
  · rw [Queue.items_push, ← List.append_assoc, hcontents hopen]
  · exact hcollected.trans (List.prefix_append _ _)
  · rw [Queue.push, hopen] at hclosed
    cases hclosed

/-- The result queue refuses the result. -/
theorem refuse (passed : Passed d b j) {r : ProbeResult} (hphase : b.worker.phase = .offering r)
    (hclosed : b.outbox.receiving = false) : Passed d { b with worker := b.worker.lose } j := by
  obtain ⟨-, haccepted, hlost, hcontents, hcollected, hemptied, hcapacity⟩ := passed
  simp only [offering?, hphase, Option.toList_some, List.length_singleton] at hlost
  refine ⟨fun hopen => ?_, haccepted, ?_, hcontents, hcollected, hemptied, hcapacity⟩
  · rw [hclosed] at hopen
    cases hopen
  · simp only [lose, offering?, Option.toList_none, List.length_nil]
    omega

/-- The consumer takes a result away. -/
theorem receive (passed : Passed d b j) {r : ProbeResult} {rest : List ProbeResult}
    (hitems : b.outbox.items = r :: rest) :
    Passed d { b with outbox := { b.outbox with items := rest } }
      { j with collected := j.collected ++ [r] } := by
  obtain ⟨hwhole, haccepted, hlost, hcontents, -, hemptied, hcapacity⟩ := passed
  -- the queue is empty once its receiver is gone
  have hopen : b.outbox.receiving = true := by
    cases hreceiving : b.outbox.receiving with
    | true => rfl
    | false =>
      rw [hemptied hreceiving] at hitems
      cases hitems
  have hall : j.collected ++ [r] ++ rest = j.accepted := by
    rw [← hcontents hopen, hitems, List.append_assoc, List.singleton_append]
  refine ⟨hwhole, haccepted, hlost, fun _ => hall, ?_, fun hclosed => ?_, hcapacity⟩
  · rw [← hall]
    exact List.prefix_append _ _
  · rw [hopen] at hclosed
    cases hclosed

theorem step (passed : Passed d b j) (kept : Kept b j) (hevent : Happens b e b')
    (hcalm : ∀ text, e ≠ .own (.crash text)) : Passed d b' (j.note b e b') := by
  have hall := passed
  obtain ⟨hwhole, haccepted, hlost, hcontents, hcollected, hemptied, hcapacity⟩ := passed
  cases hevent with
  | own hstep =>
    cases hstep with
    | took hphase =>
      simp only [offering?, hphase] at hwhole hlost
      exact ⟨hwhole, haccepted, hlost, hcontents, hcollected, hemptied, hcapacity⟩
    | probed hphase => exact hall.answer kept hphase _
    | crashed => exact absurd rfl (hcalm _)
    | entered hphase hopen =>
      simp only [Journal.note, Queue.items_push, List.drop_left]
      exact hall.enter hphase hopen
    | refused hphase hclosed =>
      simp only [Journal.note, List.drop_length, List.append_nil]
      exact hall.refuse hphase hclosed
    | finished hphase =>
      simp only [offering?, hphase] at hwhole hlost
      exact ⟨hwhole, haccepted, hlost, hcontents, hcollected, hemptied, hcapacity⟩
  | @arrived source =>
    have hresults : { j with arrived := j.arrived ++ [source] }.results = j.results :=
      zipWith_append_left _ _ kept.ahead
    refine ⟨?_, ?_, ?_, hcontents, hcollected, hemptied, hcapacity⟩
    all_goals rw [Journal.note, hresults]
    · exact hwhole
    · exact haccepted
    · exact hlost
  | hungUp => exact ⟨hwhole, haccepted, hlost, hcontents, hcollected, hemptied, hcapacity⟩
  | received hitems =>
    simp only [Journal.note, hitems, List.head?_cons, Option.toList_some]
    exact hall.receive hitems
  | closed =>
    have hgone : b.outbox.close.receiving ≠ true := Bool.false_ne_true
    exact ⟨fun h => absurd h hgone, haccepted, hlost, fun h => absurd h hgone, hcollected,
      fun _ => rfl, hcapacity⟩

end Passed

/-! ## Runs -/

theorem Run.kept {p : Provider} {c n d : Nat} {b : Bench} {j : Journal}
    (h : Run (.start p c n d) b j) : Kept b j ∧ Passed d b j := by
  induction h with
  | nil => exact ⟨.start p c n d, .start p c n d⟩
  | snoc _ hcalm hevent ih =>
    have hhappens := happens_of_event? hevent
    exact ⟨ih.1.step hhappens hcalm, ih.2.step ih.1 hhappens hcalm⟩

theorem finish_iff {b : Bench} :
    (step? b .finish).isSome ↔
      b.worker.phase = .waiting ∧ b.inbox.senders = 0 ∧ b.inbox.items = [] := by
  simp only [step?, Queue.atEnd]
  cases b.worker.phase <;> simp [and_comm]

theorem take_iff {b : Bench} :
    (step? b .take).isSome ↔ b.worker.phase = .waiting ∧ b.inbox.items ≠ [] := by
  simp only [step?, Queue.pop?]
  cases b.worker.phase <;> cases b.inbox.items <;> simp

theorem offer_waits_iff {b : Bench} {r : ProbeResult} (h : b.worker.phase = .offering r) :
    step? b .offer = none ↔
      b.outbox.receiving = true ∧ b.outbox.capacity ≤ b.outbox.items.length := by
  rw [← Queue.offer_waits_iff _ r]
  simp only [step?, h]
  cases b.outbox.offer r <;> simp

/-- What is true of a worker at every point of a run. -/
structure Serving (d : Nat) (b : Bench) (j : Journal) : Prop where
  /-- The worker comes to its end exactly when its queue is closed and empty. -/
  finish_iff : (step? b .finish).isSome ↔
    b.worker.phase = .waiting ∧ b.inbox.senders = 0 ∧ b.inbox.items = []
  take_iff : (step? b .take).isSome ↔ b.worker.phase = .waiting ∧ b.inbox.items ≠ []
  answered : ∀ source, b.worker.phase = .probing source →
    ∀ answer, (step? b (.probed answer)).isSome
  offer_waits_iff : ∀ r, b.worker.phase = .offering r →
    (step? b .offer = none ↔ b.outbox.receiving = true ∧ d ≤ b.outbox.items.length)
  /-- Each step of the worker leaves it less to do. -/
  advances : ∀ m b', step? b m = some b' →
    6 * b'.inbox.items.length + b'.worker.effort + 3 * b'.outbox.items.length <
      6 * b.inbox.items.length + b.worker.effort + 3 * b.outbox.items.length
  /-- The sources are probed once each, in their order. -/
  probed : b.worker.probed <+: j.arrived.map ResolvedSource.authentication
  probes : b.worker.probed.length = j.answers.length + b.worker.probing?.toList.length
  /-- The result queue takes the first results, and loses none while its receiver is there. -/
  accepted : j.accepted <+: j.results
  collected : j.collected <+: j.accepted
  whole : b.outbox.receiving = true → j.accepted ++ b.worker.offering?.toList = j.results ∧
    j.collected ++ b.outbox.items = j.accepted
  /-- The observer is told the status of each result. -/
  events : b.worker.events = j.results.map ProbeResult.status
  processed : b.worker.stats.processed = j.answers.length
  unavailable : b.worker.stats.unavailable = j.answers.countP (!·.isOk)
  lost : j.accepted.length + b.worker.stats.lost + b.worker.offering?.toList.length =
    b.worker.stats.processed
  /-- A worker at its end has served every source. -/
  ended : b.worker.phase = .ended → b.inbox.senders = 0 ∧ b.inbox.items = [] ∧
    b.worker.probed = j.arrived.map ResolvedSource.authentication ∧
    j.results.length = j.arrived.length ∧ b.worker.stats.processed = j.arrived.length ∧
    j.accepted.length + b.worker.stats.lost = b.worker.stats.processed

/-- Whatever its probes say, however slow its consumer is, and whenever that goes, a worker makes
one result of each source that is put into its queue. -/
theorem Run.serving {p : Provider} {c n d : Nat} {b : Bench} {j : Journal}
    (h : Run (.start p c n d) b j) : Serving d b j := by
  obtain ⟨kept, passed⟩ := h.kept
  have hresults : j.results.length = j.answers.length := by
    rw [Journal.results, List.length_zipWith, Nat.min_eq_right kept.ahead]
  have hprobes : b.worker.probed.length = j.answers.length + b.worker.probing?.toList.length := by
    rw [kept.probed, List.length_map, List.length_append, List.length_take,
      Nat.min_eq_left kept.ahead]
  have hprefix : j.arrived.take j.answers.length ++ b.worker.probing?.toList <+: j.arrived := by
    refine ⟨b.inbox.items, ?_⟩
    rw [List.append_assoc, ← kept.line, List.take_append_drop]
  have hlost : j.accepted.length + b.worker.stats.lost + b.worker.offering?.toList.length =
      b.worker.stats.processed := by
    rw [passed.lost, hresults, kept.processed]
  constructor
  case finish_iff => exact Worker.finish_iff
  case take_iff => exact Worker.take_iff
  case answered =>
    intro source hphase answer
    simp [step?, hphase]
  case offer_waits_iff =>
    intro r hphase
    rw [Worker.offer_waits_iff hphase, passed.capacity]
  case advances =>
    intro m b' hstep
    exact (step_of_step? hstep).effort_lt
  case probed =>
    rw [kept.probed]
    exact hprefix.map _
  case probes => exact hprobes
  case accepted => exact passed.accepted
  case collected => exact passed.collected
  case whole => exact fun hopen => ⟨passed.whole hopen, passed.contents hopen⟩
  case events => exact kept.events
  case processed => exact kept.processed
  case unavailable => exact kept.unavailable
  case lost => exact hlost
  case ended =>
    intro hended
    obtain ⟨hsenders, hitems⟩ := kept.atEnd hended
    have hprobing : b.worker.probing? = none := by rw [probing?, hended]
    have hoffering : b.worker.offering? = none := by rw [offering?, hended]
    have hall : j.answers.length = j.arrived.length := by
      have hline := kept.line
      rw [hprobing, hitems, Option.toList_none, List.append_nil, List.drop_eq_nil_iff] at hline
      exact Nat.le_antisymm kept.ahead hline
    refine ⟨hsenders, hitems, ?_, by rw [hresults, hall], by rw [kept.processed, hall], ?_⟩
    · rw [kept.probed, hprobing, Option.toList_none, List.append_nil, hall, List.take_length]
    · rwa [hoffering, Option.toList_none, List.length_nil, Nat.add_zero] at hlost

/-- Of two sources the first one is available. The second one is not, and its result is still
waiting for room when the consumer goes. -/
theorem serving_closed_results : ∃ b j, Run (.start .aws 2 1 1) b j ∧ b.worker.phase = .ended ∧
    b.worker.stats = ⟨2, 1, 1⟩ ∧ b.worker.events = [.available, .unavailable] ∧
    j.accepted = [⟨"5", ⟨"7", none⟩, "Application", .available, none⟩] ∧ Serving 1 b j := by
  let first := ResolvedSource.make (.known .aws) "5" "key" ⟨"7", none⟩
  let second := ResolvedSource.make (.known .aws) "6" "key" ⟨"7", none⟩
  have hstart : Run (.start .aws 2 1 1) _ _ := .nil
  have hput := ((hstart.snoc (e := .put first) nofun rfl).snoc (e := .put second) nofun rfl).snoc
    (e := .hangUp) nofun rfl
  have hfirst := ((hput.snoc (e := .own .take) nofun rfl).snoc (e := .own (.probed (.ok ()))) nofun
    rfl).snoc (e := .own .offer) nofun rfl
  have hsecond := (hfirst.snoc (e := .own .take) nofun rfl).snoc
    (e := .own (.probed (.error (.probe "aws" "refused")))) nofun rfl
  have hrun := ((hsecond.snoc (e := .closeResults) nofun rfl).snoc (e := .own .offer) nofun
    rfl).snoc (e := .own .finish) nofun rfl
  exact ⟨_, _, hrun, rfl, rfl, rfl, rfl, hrun.serving⟩

end Availability.Flow.Worker
