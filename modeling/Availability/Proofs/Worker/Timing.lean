import Availability.Proofs.Worker.Run
import Availability.Rehearsal.Clock

/-!
# How long a worker takes

A worker whose probes have a deadline, on a clock that goes on only while the worker waits. Each
probe costs it the time that the probe takes, and the deadline at most, so the times of all that it
does are known beforehand: a probe starts when all earlier ones have had their time, and its result
goes out when it has had its own.

* `Inner.call_eq`: what the deadline makes of a probe.
* `Timed.Prompt`: the runs on such a clock.
* `Timed.Paced`, `Timed.Prompt.paced`: where the worker is at any time.
* `Timed.Paced.finishes`: it can always go on until all results are out.
* `Timed.Prompt.on_time`: when each probe starts, when each result goes out, and what it says.
-/

namespace Availability.Flow.Worker

open Rehearsal (Pending)

/-! ## Probes -/

/-- A probe without a deadline: how long it takes, if it ever comes back, and what it says then. -/
structure Inner where
  delay : Option Nat
  answer : Except Error Unit

namespace Inner

variable (i : Inner) (provider : String) (limit : Nat)

/-- The call of the probe with its deadline. -/
def call : Call Unit := Call.probeWithin provider limit ⟨i.delay, .result i.answer⟩

/-- How long a worker waits for the probe. -/
def cost : Nat :=
  match i.delay with
  | some d => min d limit
  | none => limit

/-- The result of a source by the probe: that of its answer, if it comes back by the deadline. -/
def result (source : ResolvedSource) : ProbeResult :=
  if i.delay.any (· ≤ limit) then verdictOn source i.answer
  else
    ⟨source.applicationId, source.identity, "Application", .unavailable,
      some s!"{provider} probe failed: timed out after {limit}ms"⟩

theorem cost_le : i.cost limit ≤ limit := by
  unfold cost
  split
  · exact Nat.min_le_right _ _
  · exact Nat.le_refl _

theorem message_timedOut : (timedOut provider limit).message =
    s!"{provider} probe failed: timed out after {limit}ms" := by
  unfold timedOut Error.message
  have hwords : " probe failed: timed out after " = " probe failed: " ++ "timed out after " := rfl
  show provider ++ " probe failed: " ++ ("timed out after " ++ toString limit ++ "ms") =
    provider ++ " probe failed: timed out after " ++ toString limit ++ "ms"
  simp only [hwords, String.append_assoc]

/-- With its deadline, a probe always comes back, at the time that it costs, and what it says makes
the result. -/
theorem call_eq : ∃ answer, i.call provider limit = ⟨some (i.cost limit), .result answer⟩ ∧
    ∀ source, resultOf source answer = i.result provider limit source := by
  have hlate : ∀ source, i.delay.any (· ≤ limit) = false →
      resultOf source (.error (timedOut provider limit)) = i.result provider limit source := by
    intro source hdelay
    rw [resultOf_eq, verdictOn, message_timedOut, result, hdelay]
    rfl
  cases hdelay : i.delay with
  | none =>
    refine ⟨.error (timedOut provider limit), ?_, fun source => hlate source (by simp [hdelay])⟩
    simp only [call, Call.probeWithin, Call.bounded, hdelay, cost]
  | some d =>
    by_cases hd : d ≤ limit
    · refine ⟨i.answer, ?_, fun source => ?_⟩
      · simp only [call, Call.probeWithin, Call.bounded, hdelay, cost, if_pos hd,
          Nat.min_eq_left hd]
      · rw [resultOf_eq, result, hdelay]
        simp [hd]
    · refine ⟨.error (timedOut provider limit), ?_,
        fun source => hlate source (by simp [hdelay, hd])⟩
      simp only [call, Call.probeWithin, Call.bounded, hdelay, cost, if_neg hd,
        Nat.min_eq_right (Nat.le_of_not_le hd)]

end Inner

/-! ## The clock -/

/-- The deadline of the probes, and the probe of the first source, of the second one and so on. -/
structure Schedule where
  limit : Nat
  inner : Nat → Inner

namespace Schedule

variable (s : Schedule)

/-- What the first `k` probes cost together. -/
def elapsed : Nat → Nat
  | 0 => 0
  | k + 1 => elapsed k + (s.inner k).cost s.limit

theorem elapsed_le (k : Nat) : s.elapsed k ≤ k * s.limit := by
  induction k with
  | zero => exact Nat.zero_le _
  | succ k ih =>
    have hcost := (s.inner k).cost_le s.limit
    rw [elapsed, Nat.succ_mul]
    omega

theorem elapsed_mono {k n : Nat} (h : k ≤ n) : s.elapsed k ≤ s.elapsed n := by
  induction h with
  | refl => exact Nat.le_refl _
  | step _ ih => exact Nat.le_add_right_of_le ih

/-- When the results of some sources are to go out, and what they are to say. -/
def results (provider : String) (sources : List ResolvedSource) : List (Nat × ProbeResult) :=
  sources.zipIdx.map fun x =>
    (s.elapsed (x.2 + 1), (s.inner x.2).result provider s.limit x.1)

theorem length_results (provider : String) (sources : List ResolvedSource) :
    (s.results provider sources).length = sources.length := by
  simp [results]

theorem getElem?_results (provider : String) (sources : List ResolvedSource) (k : Nat) :
    (s.results provider sources)[k]? = sources[k]?.map fun source =>
      (s.elapsed (k + 1), (s.inner k).result provider s.limit source) := by
  simp [results, List.getElem?_zipIdx, Function.comp_def]

/-- A probe that starts when all earlier ones have had their time comes back when it has had its
own. -/
theorem begin_call (provider : String) (k : Nat) :
    ∃ answer, Pending.begin (s.elapsed k) ((s.inner k).call provider s.limit) =
        ⟨some (s.elapsed (k + 1)), .result answer⟩ ∧
      ∀ source, resultOf source answer = (s.inner k).result provider s.limit source := by
  obtain ⟨answer, hcall, hanswer⟩ := (s.inner k).call_eq provider s.limit
  refine ⟨answer, ?_, hanswer⟩
  rw [hcall]
  rfl

end Schedule

/-- A worker on a clock. -/
structure Timed where
  bench : Bench
  now : Nat
  /-- The probe under way. -/
  pending : Option (Pending Unit)
  /-- When each probe started. -/
  starts : List Nat
  /-- The results that the result queue took, and when. -/
  emitted : List (Nat × ProbeResult)

/-- What can happen on the clock. -/
inductive Tick where
  | take
  /-- The probe comes back. -/
  | answer
  | offer
  | finish
  /-- The consumer takes a result away. -/
  | receive
  | elapse (ms : Nat)

namespace Timed

/-- A worker at the start of its clock. -/
def start (p : Provider) (inbox : Queue ResolvedSource) (outbox : Queue ProbeResult) : Timed :=
  ⟨⟨idle p, inbox, outbox⟩, 0, none, [], []⟩

variable (s : Schedule) (t : Timed)

/-- Lets something happen, if it can. The probe comes back at its own time, and not before. -/
def tick? : Tick → Option Timed
  | .take =>
    (step? t.bench .take).map fun b =>
      { t with
        bench := b
        pending := some (.begin t.now
          ((s.inner t.starts.length).call t.bench.worker.provider.name s.limit))
        starts := t.starts ++ [t.now] }
  | .answer =>
    match t.pending.bind (·.ended? t.now) with
    | some (.result answer) =>
      (step? t.bench (.probed answer)).map fun b => { t with bench := b, pending := none }
    | _ => none
  | .offer =>
    (step? t.bench .offer).map fun b =>
      { t with
        bench := b
        emitted := t.emitted ++
          (b.outbox.items.drop t.bench.outbox.items.length).map fun r => (t.now, r) }
  | .finish => (step? t.bench .finish).map fun b => { t with bench := b }
  | .receive => (t.bench.event? .receive).map fun b => { t with bench := b }
  | .elapse ms => some { t with now := t.now + ms }

/-- Whether the worker has something to do now. -/
def isBusy : Bool :=
  (t.tick? s .take).isSome || (t.tick? s .answer).isSome || (t.tick? s .offer).isSome ||
    (t.tick? s .finish).isSome

/-- How the clock goes: it stands while the worker has something to do, and does not pass the end of
the probe that the worker waits for. -/
def Allows : Tick → Prop
  | .elapse ms => t.isBusy s = false ∧
    ∀ pending due, t.pending = some pending → pending.due = some due → t.now + ms ≤ due
  | _ => True

/-- Whether there is room for a result that the worker has. -/
def HasRoom : Prop :=
  ∀ r, t.bench.worker.phase = .offering r →
    t.bench.outbox.receiving = true ∧ t.bench.outbox.items.length < t.bench.outbox.capacity

/-- The runs on a clock that goes on only while the worker waits, with room for its results. -/
inductive Prompt (t : Timed) : Timed → Prop where
  | nil : Prompt t t
  | snoc {u v : Timed} {e : Tick} :
      Prompt t u → u.tick? s e = some v → u.Allows s e → v.HasRoom → Prompt t v

section

variable {s : Schedule} {t u v : Timed} {e : Tick}

theorem isBusy_of_take (h : (step? t.bench .take).isSome) : t.isBusy s = true := by
  simp [isBusy, tick?, h]

theorem isBusy_of_offer (h : (step? t.bench .offer).isSome) : t.isBusy s = true := by
  simp [isBusy, tick?, h]

theorem Prompt.cons (htick : t.tick? s e = some u) (hallows : t.Allows s e) (hroom : u.HasRoom)
    (h : Prompt s u v) : Prompt s t v := by
  induction h with
  | nil => exact .snoc .nil htick hallows hroom
  | snoc _ htick hallows hroom ih => exact .snoc ih htick hallows hroom

theorem HasRoom.offer_isSome {r : ProbeResult} (h : t.HasRoom)
    (hphase : t.bench.worker.phase = .offering r) : (step? t.bench .offer).isSome := by
  obtain ⟨hopen, hroom⟩ := h r hphase
  rw [← Option.ne_none_iff_isSome, ne_eq, offer_waits_iff hphase]
  exact fun hfull => Nat.not_le.2 hroom hfull.2

end

/-! ## Where the worker is -/

/-- Where the worker is, by what it is doing, when the results of so many sources went out. It lets
no source wait, and no result. -/
def Stands (s : Schedule) (p : Provider) (sources : List ResolvedSource) (t : Timed) :
    WorkerPhase → Prop
  | .waiting => t.starts.length = t.emitted.length ∧ s.elapsed t.emitted.length ≤ t.now ∧
    (t.bench.inbox.items ≠ [] → t.now = s.elapsed t.emitted.length)
  | .probing source => t.starts.length = t.emitted.length + 1 ∧
    sources[t.emitted.length]? = some source ∧
    t.pending = some (.begin (s.elapsed t.emitted.length)
      ((s.inner t.emitted.length).call p.name s.limit)) ∧
    t.now ≤ s.elapsed (t.emitted.length + 1)
  | .offering r => t.starts.length = t.emitted.length + 1 ∧
    (s.results p.name sources)[t.emitted.length]? = some (t.now, r)
  | .ended => t.starts.length = t.emitted.length ∧ t.bench.inbox.items = []
  | .crashed _ => False

/-- What the worker has done, by the clock. -/
structure Paced (s : Schedule) (p : Provider) (sources : List ResolvedSource) (t : Timed) :
    Prop where
  provider : t.bench.worker.provider = p
  queue : t.bench.inbox.items = sources.drop t.starts.length
  probed : t.bench.worker.probed =
    (sources.take t.starts.length).map ResolvedSource.authentication
  starts : t.starts = (List.range t.starts.length).map s.elapsed
  emitted : t.emitted = (s.results p.name sources).take t.emitted.length
  processed : t.bench.worker.stats.processed =
    t.emitted.length + t.bench.worker.offering?.toList.length
  room : t.HasRoom
  stands : Stands s p sources t t.bench.worker.phase

namespace Paced

variable {s : Schedule} {p : Provider} {sources : List ResolvedSource} {t u : Timed}

theorem start (inbox : Queue ResolvedSource) (outbox : Queue ProbeResult) :
    Paced s p inbox.items (.start p inbox outbox) := by
  constructor <;> simp [Timed.start, idle, offering?, HasRoom, Stands, Schedule.elapsed]

theorem stands_of {phase : WorkerPhase} (h : Paced s p sources t)
    (hphase : t.bench.worker.phase = phase) : Stands s p sources t phase :=
  hphase ▸ h.stands

theorem now_of_offering {r : ProbeResult} (h : Paced s p sources t)
    (hphase : t.bench.worker.phase = .offering r) :
    t.now = s.elapsed (t.emitted.length + 1) := by
  have hresult := (h.stands_of hphase).2
  rw [Schedule.getElem?_results] at hresult
  obtain ⟨source, -, heq⟩ := Option.map_eq_some_iff.1 hresult
  exact (congrArg Prod.fst heq).symm

theorem take (h : Paced s p sources t) (htick : t.tick? s .take = some u)
    (hroom : u.HasRoom) : Paced s p sources u := by
  obtain ⟨b, hb, rfl⟩ := Option.map_eq_some_iff.1 htick
  cases step_of_step? hb with
  | @took source rest hphase hitems =>
    obtain ⟨hstarts, -, hnow⟩ := h.stands_of hphase
    have hnow := hnow (by simp [hitems])
    have hqueue := h.queue
    rw [hitems] at hqueue
    have hprocessed := h.processed
    rw [offering?, hphase] at hprocessed
    refine ⟨h.provider, ?_, ?_, ?_, h.emitted, hprocessed, hroom, ?_⟩
    · rw [List.length_append, List.length_singleton]
      exact (drop_succ_of_drop_eq_cons hqueue.symm).symm
    · rw [List.length_append, List.length_singleton, take_succ_of_drop_eq_cons hqueue.symm,
        List.map_append, ← h.probed]
      rfl
    · rw [List.length_append, List.length_singleton, List.range_succ, List.map_append, ← h.starts,
        hnow, hstarts]
      rfl
    · refine And.intro (by simp [hstarts]) (And.intro ?_ (And.intro ?_ ?_))
      · rw [← hstarts, ← List.head?_drop, ← hqueue]
        rfl
      · simp only [hstarts, hnow, h.provider]
      · rw [hnow]
        exact s.elapsed_mono (Nat.le_succ _)

theorem answer (h : Paced s p sources t) (htick : t.tick? s .answer = some u)
    (hroom : u.HasRoom) : Paced s p sources u := by
  simp only [tick?] at htick
  split at htick
  · next answer hended =>
    obtain ⟨b, hb, rfl⟩ := Option.map_eq_some_iff.1 htick
    cases step_of_step? hb with
    | @probed source _ hphase =>
      obtain ⟨hstarts, hsource, hpending, hnow⟩ := h.stands_of hphase
      obtain ⟨given, hbegin, hgiven⟩ := s.begin_call p.name t.emitted.length
      rw [hpending, hbegin, Option.bind_some, Pending.ended?] at hended
      split at hended
      · next d hdue =>
        cases hdue
        split at hended
        · next hlate =>
          cases hended
          have hprocessed := h.processed
          rw [offering?, hphase] at hprocessed
          -- it ends neither before its time nor after: the clock does not pass that
          refine ⟨h.provider, h.queue, h.probed, h.starts, h.emitted,
            congrArg (· + 1) hprocessed, hroom, And.intro hstarts ?_⟩
          rw [Schedule.getElem?_results, hsource, hgiven, Nat.le_antisymm hnow hlate]
          rfl
        · cases hended
      · cases hended
  · cases htick

theorem offer (h : Paced s p sources t) (htick : t.tick? s .offer = some u)
    (hroom : u.HasRoom) : Paced s p sources u := by
  obtain ⟨b, hb, rfl⟩ := Option.map_eq_some_iff.1 htick
  cases step_of_step? hb with
  | @entered r hphase =>
    obtain ⟨hstarts, hresult⟩ := h.stands_of hphase
    have hnow := h.now_of_offering hphase
    have hprocessed := h.processed
    rw [offering?, hphase] at hprocessed
    simp only [Queue.items_push, List.drop_left, List.map_cons, List.map_nil] at hroom ⊢
    refine ⟨h.provider, h.queue, h.probed, h.starts, ?_, ?_, hroom, ?_⟩
    · rw [List.length_append, List.length_singleton, List.take_add_one, hresult, ← h.emitted]
      rfl
    · rw [List.length_append]
      exact hprocessed
    · simp only [Stands, turn, List.length_append, List.length_singleton]
      exact ⟨hstarts, Nat.le_of_eq hnow.symm, fun _ => hnow⟩
  | refused hphase hclosed =>
    rw [(h.room _ hphase).1] at hclosed
    cases hclosed

theorem finish (h : Paced s p sources t) (htick : t.tick? s .finish = some u)
    (hroom : u.HasRoom) : Paced s p sources u := by
  obtain ⟨b, hb, rfl⟩ := Option.map_eq_some_iff.1 htick
  cases step_of_step? hb with
  | finished hphase hend =>
    simp only [Queue.atEnd, Bool.and_eq_true, List.isEmpty_iff] at hend
    have hprocessed := h.processed
    rw [offering?, hphase] at hprocessed
    exact ⟨h.provider, hend.1.symm.trans h.queue, h.probed, h.starts, h.emitted, hprocessed, hroom,
      And.intro (h.stands_of hphase).1 rfl⟩

theorem receive (h : Paced s p sources t) (htick : t.tick? s .receive = some u)
    (hroom : u.HasRoom) : Paced s p sources u := by
  obtain ⟨b, hb, rfl⟩ := Option.map_eq_some_iff.1 htick
  cases happens_of_event? hb with
  | received =>
    refine ⟨h.provider, h.queue, h.probed, h.starts, h.emitted, h.processed, hroom, ?_⟩
    cases hphase : t.bench.worker.phase <;> exact h.stands_of hphase

/-- The clock goes on only while the worker has no source or waits for a probe. -/
theorem elapse {ms : Nat} (h : Paced s p sources t) (hallows : t.Allows s (.elapse ms)) :
    Paced s p sources { t with now := t.now + ms } := by
  obtain ⟨hidle, hclock⟩ := hallows
  refine ⟨h.provider, h.queue, h.probed, h.starts, h.emitted, h.processed, h.room, ?_⟩
  cases hphase : t.bench.worker.phase with
  | waiting =>
    obtain ⟨hstarts, hnow, -⟩ := h.stands_of hphase
    refine And.intro hstarts (And.intro (Nat.le_add_right_of_le hnow) fun hitems => ?_)
    -- with a source in the queue the clock stands
    have hbusy : t.isBusy s = true := isBusy_of_take (take_iff.2 ⟨hphase, hitems⟩)
    rw [hbusy] at hidle
    cases hidle
  | probing source =>
    obtain ⟨hstarts, hsource, hpending, -⟩ := h.stands_of hphase
    obtain ⟨answer, hbegin, -⟩ := s.begin_call p.name t.emitted.length
    exact And.intro hstarts ⟨hsource, hpending, hclock _ _ hpending (by rw [hbegin])⟩
  | offering r =>
    have hbusy : t.isBusy s = true := isBusy_of_offer (h.room.offer_isSome hphase)
    rw [hbusy] at hidle
    cases hidle
  | ended => exact h.stands_of hphase
  | crashed text => exact h.stands_of hphase

theorem tick {e : Tick} (h : Paced s p sources t) (htick : t.tick? s e = some u)
    (hallows : t.Allows s e) (hroom : u.HasRoom) : Paced s p sources u := by
  cases e with
  | take => exact h.take htick hroom
  | answer => exact h.answer htick hroom
  | offer => exact h.offer htick hroom
  | finish => exact h.finish htick hroom
  | receive => exact h.receive htick hroom
  | elapse ms =>
    cases htick
    exact h.elapse hallows

end Paced

theorem Prompt.paced {s : Schedule} {p : Provider} {inbox : Queue ResolvedSource}
    {outbox : Queue ProbeResult} {t : Timed} (run : Prompt s (.start p inbox outbox) t) :
    Paced s p inbox.items t := by
  induction run with
  | nil => exact .start inbox outbox
  | snoc _ htick hallows hroom ih => exact ih.tick htick hallows hroom

/-! ## A worker goes on -/

section

variable {s : Schedule} {p : Provider} {sources : List ResolvedSource} {t u : Timed} {e : Tick}

/-- How much a worker has to do, and whether it has to wait first. -/
def left (t : Timed) : Nat :=
  2 * (6 * t.bench.inbox.items.length + t.bench.worker.effort + 3 * t.bench.outbox.items.length) +
    if (t.pending.bind Pending.due).any (t.now < ·) then 1 else 0

/-- Whether the consumer is there, and ever leaves room. -/
def IsOpen (t : Timed) : Prop :=
  t.bench.outbox.receiving = true ∧ 0 < t.bench.outbox.capacity

theorem IsOpen.tick (h : t.IsOpen) (htick : t.tick? s e = some u) : u.IsOpen := by
  have hown : ∀ {b : Bench} {m : Move}, step? t.bench m = some b →
      b.outbox.receiving = true ∧ 0 < b.outbox.capacity := by
    intro b m hb
    cases step_of_step? hb <;> exact h
  cases e with
  | answer =>
    simp only [tick?] at htick
    split at htick
    · obtain ⟨b, hb, rfl⟩ := Option.map_eq_some_iff.1 htick
      exact hown hb
    · cases htick
  | receive =>
    obtain ⟨b, hb, rfl⟩ := Option.map_eq_some_iff.1 htick
    cases happens_of_event? hb with
    | received => exact h
  | elapse ms =>
    cases htick
    exact h
  | _ =>
    obtain ⟨b, hb, rfl⟩ := Option.map_eq_some_iff.1 htick
    exact hown hb

theorem left_lt_of_step {m : Move} (h : step? t.bench m = some u.bench) : u.left < t.left := by
  have heffort := (step_of_step? h).effort_lt
  simp only [left]
  split <;> split <;> omega

/-- What can happen next, and makes what is left less. -/
def GoesOn (s : Schedule) (t : Timed) : Prop :=
  ∃ e u, t.tick? s e = some u ∧ t.Allows s e ∧ u.HasRoom ∧ u.left < t.left

theorem goesOn_of_waiting (hphase : t.bench.worker.phase = .waiting)
    (hitems : t.bench.inbox.items ≠ []) : GoesOn s t := by
  obtain ⟨b, hb⟩ := Option.isSome_iff_exists.1 (take_iff.2 ⟨hphase, hitems⟩)
  refine ⟨.take, _, by rw [tick?, hb, Option.map_some], trivial, ?_, left_lt_of_step hb⟩
  cases step_of_step? hb with
  | took => rintro _ ⟨⟩

theorem HasRoom.goesOn {r : ProbeResult} (h : t.HasRoom)
    (hphase : t.bench.worker.phase = .offering r) : GoesOn s t := by
  obtain ⟨b, hb⟩ := Option.isSome_iff_exists.1 (h.offer_isSome hphase)
  refine ⟨.offer, _, by rw [tick?, hb, Option.map_some], trivial, ?_, left_lt_of_step hb⟩
  cases step_of_step? hb with
  | entered => rintro _ ⟨⟩
  | refused => rintro _ ⟨⟩

/-- The consumer makes room. -/
theorem IsOpen.goesOn_of_full {source : ResolvedSource} (h : t.IsOpen)
    (hphase : t.bench.worker.phase = .probing source)
    (hfull : t.bench.outbox.capacity ≤ t.bench.outbox.items.length) : GoesOn s t := by
  have hpos := Nat.lt_of_lt_of_le h.2 hfull
  obtain ⟨r, rest, hitems⟩ := List.exists_cons_of_length_pos hpos
  refine ⟨.receive, _, by simp only [tick?, Bench.event?, Queue.pop?, hitems, Option.map_some]; rfl,
    trivial, ?_, ?_⟩
  · intro _ hoffering
    rw [hphase] at hoffering
    cases hoffering
  · simp only [left, hitems, List.length_cons]
    omega

theorem Paced.goesOn_of_probing {source : ResolvedSource} (h : Paced s p sources t)
    (hopen : t.IsOpen) (hphase : t.bench.worker.phase = .probing source) : GoesOn s t := by
  obtain ⟨-, -, hpending, hnow⟩ := h.stands_of hphase
  obtain ⟨answer, hbegin, -⟩ := s.begin_call p.name t.emitted.length
  rw [hbegin] at hpending
  by_cases hlate : t.now = s.elapsed (t.emitted.length + 1)
  · by_cases hfull : t.bench.outbox.capacity ≤ t.bench.outbox.items.length
    · exact hopen.goesOn_of_full hphase hfull
    · have hb : step? t.bench (.probed answer) =
          some { t.bench with worker := t.bench.worker.record (resultOf source answer) } := by
        simp only [step?, hphase]
      refine ⟨.answer, { t with
        bench := { t.bench with worker := t.bench.worker.record (resultOf source answer) }
        pending := none }, ?_, trivial, ?_, left_lt_of_step hb⟩
      · simp only [tick?, hpending, Option.bind_some, Pending.ended?, hlate, Nat.le_refl, if_true,
          hb, Option.map_some]
      · exact fun _ _ => ⟨hopen.1, Nat.lt_of_not_le hfull⟩
  · have hlt := Nat.lt_of_le_of_ne hnow hlate
    refine ⟨.elapse (s.elapsed (t.emitted.length + 1) - t.now), _, rfl, ⟨?_, ?_⟩, h.room, ?_⟩
    · have hearly : t.pending.bind (·.ended? t.now) = none := by
        rw [hpending, Option.bind_some, Pending.ended?]
        exact if_neg (Nat.not_le.2 hlt)
      simp [isBusy, tick?, step?, hphase, hearly]
    · rw [hpending]
      rintro _ _ ⟨⟩ ⟨⟩
      omega
    · simp only [left, hpending, Option.bind_some, Option.any_some, Nat.add_sub_cancel' hnow,
        Nat.lt_irrefl, hlt, decide_true, decide_false, if_true]
      exact Nat.lt_succ_self _

theorem Paced.goesOn (h : Paced s p sources t) (hopen : t.IsOpen)
    (hmore : t.emitted.length < sources.length) : GoesOn s t := by
  cases hphase : t.bench.worker.phase with
  | waiting =>
    refine goesOn_of_waiting hphase ?_
    rw [h.queue, (h.stands_of hphase).1, ne_eq, List.drop_eq_nil_iff]
    exact Nat.not_le.2 hmore
  | probing source => exact h.goesOn_of_probing hopen hphase
  | offering r => exact h.room.goesOn hphase
  | ended =>
    obtain ⟨hstarts, hitems⟩ := h.stands_of hphase
    rw [h.queue, hstarts, List.drop_eq_nil_iff] at hitems
    exact absurd hmore (Nat.not_lt.2 hitems)
  | crashed text => exact (h.stands_of hphase).elim

theorem Paced.emitted_eq (h : Paced s p sources t) (hall : sources.length ≤ t.emitted.length) :
    t.emitted = s.results p.name sources := by
  rw [h.emitted, List.take_of_length_le]
  rwa [Schedule.length_results]

theorem Paced.finishes (h : Paced s p sources t) (hopen : t.IsOpen) :
    ∃ u, Prompt s t u ∧ u.emitted = s.results p.name sources := by
  -- by what is left to do, which every tick of `goesOn` makes less
  induction hn : t.left using Nat.strongRecOn generalizing t with
  | ind n ih =>
    by_cases hmore : t.emitted.length < sources.length
    · obtain ⟨e, u, htick, hallows, hroom, hlt⟩ := h.goesOn hopen hmore
      obtain ⟨v, hrun, hall⟩ := ih u.left (hn ▸ hlt) (h.tick htick hallows hroom)
        (hopen.tick htick) rfl
      exact ⟨v, .cons htick hallows hroom hrun, hall⟩
    · exact ⟨t, .nil, h.emitted_eq (Nat.le_of_not_lt hmore)⟩

end

/-! ## What goes out, and when -/

/-- The worker on time: what it has done, and what it has done once the time of all probes is
over. -/
structure OnTime (s : Schedule) (p : Provider) (sources : List ResolvedSource) (t : Timed) :
    Prop where
  /-- A probe starts when those before it have had their time. -/
  starts : t.starts <+: (List.range sources.length).map s.elapsed
  probed : t.bench.worker.probed =
    (sources.take t.starts.length).map ResolvedSource.authentication
  emitted : t.emitted <+: s.results p.name sources
  /-- No probe costs more than the deadline. -/
  within : s.elapsed sources.length ≤ sources.length * s.limit
  inTime : ∀ x ∈ t.emitted, x.1 ≤ s.elapsed sources.length
  overdue : s.elapsed sources.length < t.now →
    t.starts = (List.range sources.length).map s.elapsed ∧
    t.emitted = s.results p.name sources ∧
    t.bench.worker.stats.processed = sources.length
  /-- Whatever the worker is doing, it can go on until all results are out. -/
  finishes : t.IsOpen → ∃ u, Prompt s t u ∧ u.emitted = s.results p.name sources

section

variable {s : Schedule} {p : Provider} {sources : List ResolvedSource} {t : Timed}

theorem Paced.length_emitted_le (h : Paced s p sources t) :
    t.emitted.length ≤ sources.length := by
  have hlength := congrArg List.length h.emitted
  rw [List.length_take, s.length_results] at hlength
  omega

theorem Paced.lt_of_offering {r : ProbeResult} (h : Paced s p sources t)
    (hphase : t.bench.worker.phase = .offering r) : t.emitted.length < sources.length := by
  rw [← s.length_results p.name]
  exact (List.getElem?_eq_some_iff.1 (h.stands_of hphase).2).1

theorem Paced.lt_of_probing {source : ResolvedSource} (h : Paced s p sources t)
    (hphase : t.bench.worker.phase = .probing source) : t.emitted.length < sources.length :=
  (List.getElem?_eq_some_iff.1 (h.stands_of hphase).2.1).1

theorem Paced.length_starts_le (h : Paced s p sources t) : t.starts.length ≤ sources.length := by
  cases hphase : t.bench.worker.phase with
  | waiting =>
    rw [(h.stands_of hphase).1]
    exact h.length_emitted_le
  | probing source =>
    rw [(h.stands_of hphase).1]
    exact h.lt_of_probing hphase
  | offering r =>
    rw [(h.stands_of hphase).1]
    exact h.lt_of_offering hphase
  | ended =>
    rw [(h.stands_of hphase).1]
    exact h.length_emitted_le
  | crashed text => exact (h.stands_of hphase).elim

/-- Once the time of all probes is over, the worker has no source and no result. -/
theorem Paced.idle_of_overdue (h : Paced s p sources t) (hlate : s.elapsed sources.length < t.now) :
    t.starts.length = t.emitted.length ∧ t.bench.inbox.items = [] ∧
      t.bench.worker.offering? = none := by
  have hbusy : t.emitted.length < sources.length → t.now ≤ s.elapsed (t.emitted.length + 1) →
      False := fun hlt hnow =>
    Nat.not_lt.2 (Nat.le_trans hnow (s.elapsed_mono hlt)) hlate
  cases hphase : t.bench.worker.phase with
  | waiting =>
    obtain ⟨hstarts, -, hnow⟩ := h.stands_of hphase
    refine ⟨hstarts, Decidable.byContradiction fun hitems => ?_, by rw [offering?, hphase]⟩
    rw [hnow hitems] at hlate
    exact Nat.not_lt.2 (s.elapsed_mono h.length_emitted_le) hlate
  | probing source =>
    exact (hbusy (h.lt_of_probing hphase) (h.stands_of hphase).2.2.2).elim
  | offering r =>
    exact (hbusy (h.lt_of_offering hphase) (Nat.le_of_eq (h.now_of_offering hphase))).elim
  | ended =>
    obtain ⟨hstarts, hitems⟩ := h.stands_of hphase
    exact ⟨hstarts, hitems, by rw [offering?, hphase]⟩
  | crashed text => exact (h.stands_of hphase).elim

theorem Paced.inTime (h : Paced s p sources t) :
    ∀ x ∈ t.emitted, x.1 ≤ s.elapsed sources.length := by
  intro x hx
  rw [h.emitted] at hx
  obtain ⟨k, hk⟩ := List.mem_iff_getElem?.1 (List.mem_of_mem_take hx)
  rw [Schedule.getElem?_results] at hk
  obtain ⟨source, hsource, rfl⟩ := Option.map_eq_some_iff.1 hk
  exact s.elapsed_mono (List.getElem?_eq_some_iff.1 hsource).1

end

/-- **A hung probe costs the deadline, and no more.** As long as there is room for its results, a
worker starts each probe when all earlier ones have had their time, the deadline at most, and its
result goes out when it has had its own. -/
theorem Prompt.on_time {s : Schedule} {p : Provider} {inbox : Queue ResolvedSource}
    {outbox : Queue ProbeResult} {t : Timed} (run : Prompt s (.start p inbox outbox) t) :
    OnTime s p inbox.items t := by
  have paced := run.paced
  constructor
  case starts =>
    have hrange : List.range t.starts.length <+: List.range inbox.items.length := by
      rw [← Nat.min_eq_left paced.length_starts_le, ← List.take_range]
      exact List.take_prefix _ _
    rw [paced.starts]
    exact hrange.map _
  case probed => exact paced.probed
  case emitted =>
    rw [paced.emitted]
    exact List.take_prefix _ _
  case within => exact s.elapsed_le _
  case inTime => exact paced.inTime
  case overdue =>
    intro hlate
    obtain ⟨hstarts, hitems, hoffering⟩ := paced.idle_of_overdue hlate
    have hall : t.starts.length = inbox.items.length := by
      rw [paced.queue, List.drop_eq_nil_iff] at hitems
      exact Nat.le_antisymm paced.length_starts_le hitems
    refine ⟨?_, paced.emitted_eq (Nat.le_of_eq (hall.symm.trans hstarts)), ?_⟩
    · rw [paced.starts, hall]
    · rw [paced.processed, hoffering, ← hstarts, hall]
      rfl
  case finishes => exact fun hopen => paced.finishes hopen

/-- With a deadline of ten milliseconds: a probe that comes back after three, one that never does,
one that comes back at the deadline, and one that takes no time. -/
theorem on_time_hung_probe : ∃ s inbox outbox t, s.limit = 10 ∧
    (List.range 4).map (fun k => (s.inner k).delay) = [some 3, none, some 10, some 0] ∧
    Prompt s (.start .gcp inbox outbox) t ∧ t.starts = [0, 3, 13, 23] ∧
    t.emitted = [
      (3, ⟨"5", ⟨"1", none⟩, "Application", .available, none⟩),
      (13, ⟨"6", ⟨"1", none⟩, "Application", .unavailable,
        some "gcp probe failed: timed out after 10ms"⟩),
      (23, ⟨"7", ⟨"1", none⟩, "Application", .unavailable, some "gcp probe failed: refused"⟩),
      (23, ⟨"8", ⟨"1", none⟩, "Application", .available, none⟩)] ∧
    OnTime s .gcp inbox.items t := by
  let s : Schedule := ⟨10, fun
    | 0 => ⟨some 3, .ok ()⟩
    | 1 => ⟨none, .ok ()⟩
    | 2 => ⟨some 10, .error (.probe "gcp" "refused")⟩
    | _ => ⟨some 0, .ok ()⟩⟩
  let source (id : String) : ResolvedSource := .make (.known .gcp) id "key" ⟨"1", none⟩
  let inbox : Queue ResolvedSource := ⟨4, [source "5", source "6", source "7", source "8"], 1, true⟩
  have hresults : s.results Provider.gcp.name inbox.items = [
      (3, ⟨"5", ⟨"1", none⟩, "Application", .available, none⟩),
      (13, ⟨"6", ⟨"1", none⟩, "Application", .unavailable,
        some "gcp probe failed: timed out after 10ms"⟩),
      (23, ⟨"7", ⟨"1", none⟩, "Application", .unavailable, some "gcp probe failed: refused"⟩),
      (23, ⟨"8", ⟨"1", none⟩, "Application", .available, none⟩)] := by
    decide +revert
  have hstart : Prompt s (.start .gcp inbox (.bounded 5 1)) _ := .nil
  have hfirst := (((hstart.snoc (e := .take) rfl trivial nofun).snoc (e := .elapse 3) rfl
    ⟨rfl, by rintro _ _ ⟨⟩ ⟨⟩; decide⟩ nofun).snoc (e := .answer) rfl trivial
    fun _ _ => ⟨rfl, by decide⟩).snoc (e := .offer) rfl trivial nofun
  have hhung := (((hfirst.snoc (e := .take) rfl trivial nofun).snoc (e := .elapse 10) rfl
    ⟨rfl, by rintro _ _ ⟨⟩ ⟨⟩; decide⟩ nofun).snoc (e := .answer) rfl trivial
    fun _ _ => ⟨rfl, by decide⟩).snoc (e := .offer) rfl trivial nofun
  have hthird := (((hhung.snoc (e := .take) rfl trivial nofun).snoc (e := .elapse 10) rfl
    ⟨rfl, by rintro _ _ ⟨⟩ ⟨⟩; decide⟩ nofun).snoc (e := .answer) rfl trivial
    fun _ _ => ⟨rfl, by decide⟩).snoc (e := .offer) rfl trivial nofun
  have hrun := ((hthird.snoc (e := .take) rfl trivial nofun).snoc (e := .answer) rfl trivial
    fun _ _ => ⟨rfl, by decide⟩).snoc (e := .offer) rfl trivial nofun
  exact ⟨s, inbox, .bounded 5 1, _, rfl, rfl, hrun, rfl,
    (hrun.paced.emitted_eq (Nat.le_refl 4)).trans hresults, hrun.on_time⟩

end Timed

end Availability.Flow.Worker
