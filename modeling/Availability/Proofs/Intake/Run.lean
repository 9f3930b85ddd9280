import Mathlib.Data.List.Induction
import Availability.Proofs.Router.Run

/-!
# Any run of an intake

An intake with everything that can happen to it and to the queues that it feeds: the stream has a
message ready, or ends; the credential service answers, or crashes; what is in the queues is taken
away, and their receivers may go; and at any moment the intake may be told to stop. The journal of
a run is that of the router.

* `Behind`, `Run.behind`: the router of an intake runs as any router does, also once the intake has
  let go of its queues.
* `Journal.messages`, `Run.whole`: every message that was pulled is done or in hand.
* `movesLeft`: how many moves an intake makes at most once it has been told to stop.
* `Carried`, `Run.carried`: what comes after the moment at which it is told to stop.
* `Run.stops_cleanly`: no message is pulled after that moment, and none is lost to it.
* `Run.intake_run`: the intake of a pipeline is one of these.
-/

namespace Availability.Flow

/-! ## A router that has let go of its queues -/

namespace Router

variable {r r' : Router} {p : Provider}

/-- A receiver takes the same from a queue that the router has let go of. -/
theorem step?_receive_drop (r : Router) (p : Provider) :
    r.drop.step? (.receive p) = (r.step? (.receive p)).map drop := by
  have hget : r.drop.queues.get p = (r.queues.get p).dropSender := PerProvider.get_map _ _ _
  simp only [step?, hget, Queue.pop?, Queue.dropSender]
  cases (r.queues.get p).items with
  | nil => rfl
  | cons source rest => cases p <;> rfl

theorem step?_close_drop (r : Router) (p : Provider) :
    r.drop.step? (.close p) = (r.step? (.close p)).map drop := by
  have hget : r.drop.queues.get p = (r.queues.get p).dropSender := PerProvider.get_map _ _ _
  simp only [step?, hget]
  cases p <;> rfl

theorem items_drop (r : Router) (p : Provider) :
    (r.drop.queues.get p).items = (r.queues.get p).items := by
  rw [drop, PerProvider.get_map]
  rfl

namespace Journal

variable {j : Journal} {ms : List Move} {m : Move}

/-- The messages that are done and the one in hand. -/
def messages (j : Journal) : List InboundMessage :=
  j.handled.map (·.message) ++ (j.inHand.map Prod.fst).toList

theorem note_drop (j : Journal) (ms : List Move) (r : Router) (m : Move) (r' : Router) :
    j.note ms r.drop m r'.drop = j.note ms r m r' := by
  have hfollow : j.follow r.drop m = j.follow r m := by
    cases m with
    | receive p => simp only [follow, items_drop]
    | _ => rfl
  simp only [note, hfollow]
  rfl

theorem messages_settle (j : Journal) (ms : List Move) (v : Verdict) :
    (j.settle ms v).messages = j.messages := by
  unfold settle
  split
  · next hhand => simp [messages, hhand]
  · rfl

theorem messages_note (j : Journal) (ms : List Move) (r : Router) (m : Move) (r' : Router) :
    (j.note ms r m r').messages = (j.follow r m).messages := by
  unfold note
  split
  · exact messages_settle _ _ _
  · rfl

theorem handled_note (j : Journal) (ms : List Move) (r : Router) (m : Move) (r' : Router) :
    j.handled <+: (j.note ms r m r').handled := by
  have hfollow := handled_follow (j := j) (r := r) (m := m)
  unfold note settle
  split
  · split
    · rw [hfollow]
      exact List.prefix_append _ _
    · exact ⟨[], by rw [List.append_nil, hfollow]⟩
  · exact ⟨[], by rw [List.append_nil, hfollow]⟩

theorem given_note (j : Journal) (ms : List Move) (r : Router) (m : Move) (r' : Router) :
    (j.note ms r m r').given = (j.follow r m).given := by
  unfold note settle
  split
  · split <;> rfl
  · rfl

end Journal

theorem InHand.eq_none_iff {d : Option Dispatch}
    {x : Option (InboundMessage × Option (Except Error ResolvedSource))} (h : InHand d x) :
    d = Option.none ↔ x = Option.none := by
  cases h <;> simp

/-- A message that was handed over and not given up on is done or in hand. -/
theorem Run.messages_eq {c : Nat} {ms : List Move} {r : Router} {j : Journal} (h : Run c ms r j)
    (hstays : .abandon ∉ ms) : j.messages = j.given := by
  induction h with
  | start => rfl
  | @step ms r r' j m hrun hstep ih =>
    rw [List.mem_append, not_or, List.mem_singleton] at hstays
    have hbefore := ih hstays.1
    rw [Journal.messages_note, Journal.given_note]
    cases m with
    | handle m =>
      -- a message is handed over only when none is in hand
      have hcurrent : r.current = none := by
        cases step_of_step? hstep with
        | malformed hcurrent => exact hcurrent
        | asked hcurrent => exact hcurrent
      have hhand := hrun.kept.hand.eq_none_iff.1 hcurrent
      simp only [Journal.messages, hhand, Option.map_none, Option.toList_none,
        List.append_nil] at hbefore
      simp [Journal.follow, Journal.messages, hbefore]
    | lookup answer =>
      have hmessages : (j.follow r (.lookup answer)).messages = j.messages := by
        simp [Journal.follow, Journal.messages, Function.comp_def]
      exact hmessages.trans hbefore
    | abandon => exact absurd rfl hstays.2
    | _ => exact hbefore

end Router

namespace Intake

open Router (Journal)

/-! ## Runs -/

/-- What can happen to an intake and to the queues that it feeds. -/
inductive Event where
  | own (m : Move)
  /-- The intake is told to stop. -/
  | cancel
  /-- The front of a queue is taken away. -/
  | receive (p : Provider)
  /-- The receiver of a queue lets go of it. -/
  | close (p : Provider)

namespace Event

/-- What an event is to the router. -/
def router? : Event → Option Router.Move
  | .own (.pull m) => some (.handle m)
  | .own (.lookup answer) => some (.lookup answer)
  | .own .enqueue => some .enqueue
  | .receive p => some (.receive p)
  | .close p => some (.close p)
  | _ => none

def pulled? : Event → Option InboundMessage
  | .own (.pull m) => some m
  | _ => none

/-- Whether the intake does it. -/
def isOwn : Event → Bool
  | .own _ => true
  | _ => false

end Event

/-- The messages that were pulled. -/
def pulled (es : List Event) : List InboundMessage := es.filterMap Event.pulled?

/-- Lets an event happen, if it can. -/
def event? (i : Intake) : Event → Option Intake
  | .own m => i.step? m
  | .cancel => some { i with cancelled := true }
  | .receive p => (i.router.step? (.receive p)).map fun r => { i with router := r }
  | .close p => (i.router.step? (.close p)).map fun r => { i with router := r }

/-- The journal after one more event, from `i` to `i'`, after the events `es`. -/
def note (j : Journal) (es : List Event) (i : Intake) (e : Event) (i' : Intake) : Journal :=
  match e.router? with
  | some m => j.note (es.filterMap Event.router?) i.router m i'.router
  | none => j

/-- The runs of an intake whose queues have room for `c` sources each. -/
inductive Run (c : Nat) : List Event → Intake → Journal → Prop where
  | start : Run c [] (bounded c) .empty
  | snoc {es : List Event} {i i' : Intake} {j : Journal} {e : Event} :
      Run c es i j → i.event? e = some i' → Run c (es ++ [e]) i' (note j es i e i')

variable {c : Nat} {es : List Event} {i i' : Intake} {j : Journal} {e : Event}

theorem Run.of_snoc (h : Run c (es ++ [e]) i' j) :
    ∃ i j₀, Run c es i j₀ ∧ i.event? e = some i' ∧ j = note j₀ es i e i' := by
  generalize hes : es ++ [e] = fs at h
  cases h with
  | start => simp at hes
  | snoc hrun hevent =>
    obtain ⟨rfl, he⟩ := List.append_inj' hes rfl
    cases he
    exact ⟨_, _, hrun, hevent, rfl⟩

/-- All that an event can do. -/
inductive Happens (i : Intake) : Event → Intake → Prop where
  | own {m : Move} {i' : Intake} : Step i m i' → Happens i (.own m) i'
  | cancelled : Happens i .cancel { i with cancelled := true }
  | received {p : Provider} {source : ResolvedSource} {rest : List ResolvedSource} :
      (i.router.queues.get p).items = source :: rest →
      Happens i (.receive p)
        { i with router := i.router.putQueue p { i.router.queues.get p with items := rest } }
  | closed {p : Provider} :
      Happens i (.close p)
        { i with router := i.router.putQueue p (i.router.queues.get p).close }

theorem happens_of_event? (h : i.event? e = some i') : Happens i e i' := by
  cases e with
  | own m => exact .own (step_of_step? h)
  | cancel =>
    cases h
    exact .cancelled
  | receive p =>
    simp only [event?] at h
    obtain ⟨r, hr, rfl⟩ := Option.map_eq_some_iff.1 h
    cases Router.step_of_step? hr with
    | received hitems => exact .received hitems
  | close p =>
    simp only [event?] at h
    obtain ⟨r, hr, rfl⟩ := Option.map_eq_some_iff.1 h
    cases Router.step_of_step? hr with
    | closed => exact .closed

/-! ## The router of an intake -/

/-- The router `r` has made the moves of a run, and the intake has it, or what is left of it once
it has let go of its queues. -/
structure Behind (c : Nat) (es : List Event) (i : Intake) (j : Journal) (r : Router) : Prop where
  run : Router.Run c (es.filterMap Event.router?) r j
  router : i.router = if i.isOver then r.drop else r
  settled : i.phase = .ended → r.current = none

/-- An event in which the router does not take part. -/
theorem Behind.aside {r : Router} (h : Behind c es i j r) (haside : e.router? = none)
    (hrouter : i'.router = if i'.isOver then r.drop else r)
    (hsettled : i'.phase = .ended → r.current = none) :
    Behind c (es ++ [e]) i' (note j es i e i') r := by
  have hmoves : (es ++ [e]).filterMap Event.router? = es.filterMap Event.router? := by
    rw [filterMap_snoc, haside, Option.toList_none, List.append_nil]
  have hnote : note j es i e i' = j := by simp only [note, haside]
  refine ⟨?_, hrouter, hsettled⟩
  rw [hmoves, hnote]
  exact h.run

/-- The intake comes to its end. -/
theorem Behind.leave {r : Router} {phase : IntakePhase} (h : Behind c es i j r)
    (haside : e.router? = none) (hrunning : i.phase = .running)
    (hdone : phase = .ended → i.router.current = none) (hover : (i.finish phase).isOver = true) :
    Behind c (es ++ [e]) (i.finish phase) (note j es i e (i.finish phase)) r := by
  have hrouter : i.router = r := by simpa [isOver, hrunning] using h.router
  refine h.aside haside ?_ fun hended => ?_
  · rw [if_pos hover, ← hrouter]
    rfl
  · rw [← hrouter]
    exact hdone hended

/-- A move of the router of an intake at work. -/
theorem Behind.move {r : Router} {m : Router.Move} (h : Behind c es i j r)
    (hmove : e.router? = some m) (hover : i.isOver = false) (hover' : i'.isOver = false)
    (hstep : i.router.step? m = some i'.router) :
    Behind c (es ++ [e]) i' (note j es i e i') i'.router := by
  have hrouter : i.router = r := by simpa [hover] using h.router
  have hmoves : (es ++ [e]).filterMap Event.router? = es.filterMap Event.router? ++ [m] := by
    rw [filterMap_snoc, hmove]
    rfl
  refine ⟨?_, by simp [hover'], fun hended => ?_⟩
  · simp only [hmoves, note, hmove]
    rw [hrouter] at hstep ⊢
    exact h.run.step hstep
  · simp [isOver, hended] at hover'

/-- What is done at the other end of a queue. -/
theorem Behind.outside {r r₂ : Router} {m : Router.Move} (h : Behind c es i j r)
    (hmove : e.router? = some m) (hstep : i.router.step? m = some r₂)
    (hdrop : r.drop.step? m = (r.step? m).map Router.drop)
    (hcurrent : ∀ r', r.step? m = some r' → r'.current = r.current) :
    ∃ r', Behind c (es ++ [e]) { i with router := r₂ }
      (note j es i e { i with router := r₂ }) r' := by
  have hmoves : (es ++ [e]).filterMap Event.router? = es.filterMap Event.router? ++ [m] := by
    rw [filterMap_snoc, hmove]
    rfl
  have hrouter := h.router
  cases hover : i.isOver with
  | false =>
    exact ⟨r₂, h.move hmove hover hover hstep⟩
  | true =>
    rw [hover, if_pos rfl] at hrouter
    rw [hrouter, hdrop] at hstep
    obtain ⟨r', hr', rfl⟩ := Option.map_eq_some_iff.1 hstep
    refine ⟨r', ?_, ?_, fun hended => ?_⟩
    · simp only [hmoves, note, hmove, hrouter, Journal.note_drop]
      exact h.run.step hr'
    · exact (if_pos hover).symm
    · rw [hcurrent r' hr']
      exact h.settled hended

theorem follow_router {k : Intake} {x : Option Router} (h : x.map k.follow = some i') :
    x = some i'.router ∧ i'.isOver = k.isOver := by
  obtain ⟨r, rfl, rfl⟩ := Option.map_eq_some_iff.1 h
  exact ⟨rfl, rfl⟩

/-- A move of the intake itself. -/
theorem Behind.own {r : Router} {m : Move} (h : Behind c es i j r)
    (hstep : i.step? m = some i') :
    ∃ r', Behind c (es ++ [.own m]) i' (note j es i (.own m) i') r' := by
  have hrunning := (step_of_step? hstep).running
  have hover : i.isOver = false := by simp [isOver, hrunning]
  have hrouter : i.router = r := by simpa [hover] using h.router
  cases m with
  | pull m =>
    simp only [step?] at hstep
    split at hstep
    · obtain ⟨hmove, hover'⟩ := follow_router hstep
      exact ⟨_, h.move rfl hover (hover'.trans hover) hmove⟩
    · cases hstep
  | lookup answer =>
    simp only [step?, hover, Bool.false_eq_true, if_false] at hstep
    obtain ⟨hmove, hover'⟩ := follow_router hstep
    exact ⟨_, h.move rfl hover (hover'.trans hover) hmove⟩
  | enqueue =>
    simp only [step?, hover, Bool.false_eq_true, if_false] at hstep
    obtain ⟨hmove, hover'⟩ := follow_router hstep
    exact ⟨_, h.move rfl hover (hover'.trans hover) hmove⟩
  | streamEnds =>
    cases step_of_step? hstep with
    | streamEnded hready =>
      exact ⟨r, h.leave rfl hrunning (fun _ => (phase_of_isListening hready).2) rfl⟩
  | stop =>
    cases step_of_step? hstep with
    | stopped hready =>
      exact ⟨r, h.leave rfl hrunning (fun _ => (phase_of_isListening hready).2) rfl⟩
  | crash text =>
    cases step_of_step? hstep with
    | crashed => exact ⟨r, h.leave rfl hrunning (by rintro ⟨⟩) rfl⟩

theorem Behind.event {r : Router} (h : Behind c es i j r) (hevent : i.event? e = some i') :
    ∃ r', Behind c (es ++ [e]) i' (note j es i e i') r' := by
  cases e with
  | own m => exact h.own hevent
  | cancel =>
    cases hevent
    exact ⟨r, h.aside rfl h.router h.settled⟩
  | receive p =>
    simp only [event?] at hevent
    obtain ⟨r₂, hr₂, rfl⟩ := Option.map_eq_some_iff.1 hevent
    refine h.outside rfl hr₂ (Router.step?_receive_drop r p) fun r' hr' => ?_
    cases Router.step_of_step? hr'
    rfl
  | close p =>
    simp only [event?] at hevent
    obtain ⟨r₂, hr₂, rfl⟩ := Option.map_eq_some_iff.1 hevent
    refine h.outside rfl hr₂ (Router.step?_close_drop r p) fun r' hr' => ?_
    cases Router.step_of_step? hr'
    rfl

theorem Run.behind (h : Run c es i j) : ∃ r, Behind c es i j r := by
  induction h with
  | start => exact ⟨.bounded c, .start, rfl, nofun⟩
  | snoc _ hevent ih =>
    obtain ⟨r, hr⟩ := ih
    exact hr.event hevent

theorem Behind.verdicts {r : Router} (h : Behind c es i j r) :
    i.router.verdicts = j.handled.map (·.verdict) := by
  rw [← h.run.kept.verdicts, h.router]
  split <;> rfl

theorem Behind.items {r : Router} (h : Behind c es i j r) (p : Provider) :
    (i.router.queues.get p).items = (r.queues.get p).items := by
  rw [h.router]
  split
  · exact Router.items_drop r p
  · rfl

theorem close_mem_iff {p : Provider} :
    Router.Move.close p ∈ es.filterMap Event.router? ↔ .close p ∈ es := by
  rw [List.mem_filterMap]
  constructor
  · rintro ⟨e, he, hmove⟩
    unfold Event.router? at hmove
    split at hmove <;> cases hmove
    exact he
  · exact fun he => ⟨_, he, rfl⟩

/-! ## What the intake has counted -/

theorem given_note (j : Journal) (es : List Event) (i : Intake) (e : Event) (i' : Intake) :
    (note j es i e i').given = j.given ++ e.pulled?.toList := by
  unfold note
  cases e with
  | own m =>
    cases m <;> simp [Event.router?, Event.pulled?, Journal.given_note, Journal.follow]
  | _ => simp [Event.router?, Event.pulled?, Journal.given_note, Journal.follow]

theorem handled_note (j : Journal) (es : List Event) (i : Intake) (e : Event) (i' : Intake) :
    j.handled <+: (note j es i e i').handled := by
  unfold note
  split
  · exact Journal.handled_note _ _ _ _ _
  · exact List.prefix_refl _

/-- The numbers of an intake, and whether it has been told to stop, after the events `es`. -/
structure Counted (es : List Event) (i : Intake) : Prop where
  received : i.stats.received = (pulled es).length
  measured : i.Measured
  cancelled_iff : i.cancelled = true ↔ .cancel ∈ es
  crashed : ∀ text, i.phase = .crashed text → .own (.crash text) ∈ es

theorem Counted.event (h : Counted es i) (hevent : Happens i e i') : Counted (es ++ [e]) i' := by
  obtain ⟨hreceived, hmeasured, hcancelled, hcrashed⟩ := h
  have hpulled : (pulled (es ++ [e])).length = i.stats.received + e.pulled?.toList.length := by
    rw [pulled, filterMap_snoc, List.length_append, hreceived]
    rfl
  cases hevent with
  | own hstep =>
    have hrunning := hstep.running
    refine ⟨?_, hmeasured.step hstep, ?_, fun text hphase => ?_⟩
    · rw [hpulled]
      cases hstep <;> rfl
    · simp only [List.mem_append, List.mem_singleton, reduceCtorEq, or_false]
      rw [← hcancelled]
      cases hstep <;> exact Iff.rfl
    · cases hstep with
      | crashed =>
        cases hphase
        exact List.mem_append_right _ (List.mem_singleton_self _)
      | streamEnded => cases hphase
      | stopped => cases hphase
      | _ => cases hrunning.symm.trans hphase
  | cancelled =>
    exact ⟨hpulled.symm, ⟨hmeasured.1, hmeasured.2⟩, by simp,
      fun text hphase => List.mem_append_left _ (hcrashed text hphase)⟩
  | _ =>
    exact ⟨hpulled.symm, ⟨hmeasured.1, hmeasured.2⟩, by simpa using hcancelled,
      fun text hphase => List.mem_append_left _ (hcrashed text hphase)⟩

theorem Run.counted (h : Run c es i j) : Counted es i := by
  induction h with
  | start => exact ⟨rfl, ⟨rfl, rfl⟩, by simp [bounded], nofun⟩
  | snoc _ hevent ih => exact ih.event (happens_of_event? hevent)

theorem Run.given_eq (h : Run c es i j) : j.given = pulled es := by
  induction h with
  | start => rfl
  | snoc _ _ ih => rw [given_note, ih, pulled, pulled, filterMap_snoc]

/-- Every message that was pulled is done or in hand. -/
theorem Run.whole (h : Run c es i j) : pulled es = j.messages := by
  obtain ⟨r, hr⟩ := h.behind
  have hstays : Router.Move.abandon ∉ es.filterMap Event.router? := by
    rw [List.mem_filterMap]
    rintro ⟨e, -, hmove⟩
    unfold Event.router? at hmove
    split at hmove <;> cases hmove
  rw [hr.run.messages_eq hstays, h.given_eq]

/-! ## After it has been told to stop -/

/-- How many moves an intake makes at most once it has been told to stop. -/
def movesLeft (i : Intake) : Nat :=
  if i.isOver then 0
  else
    match i.router.current with
    | some (.resolving _ _) => 3
    | some (.sending _ _) => 2
    | _ => 1

theorem movesLeft_of_running (h : i.phase = .running) :
    i.movesLeft = match i.router.current with
      | some (.resolving _ _) => 3
      | some (.sending _ _) => 2
      | _ => 1 := by
  simp [movesLeft, isOver, h]

theorem Step.movesLeft_lt {m : Move} (h : Step i m i') (hcancelled : i.cancelled = true) :
    i'.movesLeft < i.movesLeft := by
  have hbefore := movesLeft_of_running h.running
  cases h with
  | malformed _ hno => simp [hno] at hcancelled
  | asked _ hno => simp [hno] at hcancelled
  | streamEnded _ hno => simp [hno] at hcancelled
  | stopped hready =>
    rw [(phase_of_isListening hready).2] at hbefore
    exact hbefore ▸ Nat.zero_lt_one
  | @dropped _ _ v _ hrunning hcurrent =>
    have hafter : (i.settle i.router v).movesLeft = 1 := movesLeft_of_running hrunning
    simp only [hcurrent] at hbefore
    omega
  | @resolved _ _ p source hrunning hcurrent =>
    have hafter : (i.hold (.sending p source)).movesLeft = 2 := movesLeft_of_running hrunning
    simp only [hcurrent] at hbefore
    omega
  | crashed _ hcurrent =>
    rw [hcurrent] at hbefore
    exact hbefore ▸ Nat.zero_lt_succ 2
  | @entered p source hrunning hcurrent =>
    have hafter : (i.enqueue p source).movesLeft = 1 := movesLeft_of_running hrunning
    simp only [hcurrent] at hbefore
    omega
  | refused hrunning hcurrent =>
    have hafter : (i.settle i.router .queueClosed).movesLeft = 1 := movesLeft_of_running hrunning
    simp only [hcurrent] at hbefore
    omega

theorem Happens.movesLeft_le (h : Happens i e i') (hcancelled : i.cancelled = true) :
    (if e.isOwn then 1 else 0) + i'.movesLeft ≤ i.movesLeft := by
  cases h with
  | own hstep =>
    have hless := hstep.movesLeft_lt hcancelled
    simp only [Event.isOwn, if_true]
    omega
  | _ => exact Nat.le_of_eq (Nat.zero_add _)

/-- What an intake has done since it was told to stop: from `i₀`, with the journal `j₀`, to `i`,
with the journal `j`, by the events `after`. -/
structure Carried (i₀ : Intake) (j₀ : Journal) (after : List Event) (i : Intake) (j : Journal) :
    Prop where
  /-- Nothing is read of the stream, neither a message nor its end. -/
  silent : ∀ m, .own (.pull m) ∉ after
  deaf : .own .streamEnds ∉ after
  few : after.countP Event.isOwn + i.movesLeft ≤ i₀.movesLeft
  /-- What was done before is as it was, and only the message that was in hand is done since. -/
  finished : ∃ late, j.handled = j₀.handled ++ late ∧
    late.map (·.message) ++ (j.inHand.map Prod.fst).toList = (j₀.inHand.map Prod.fst).toList

/-- An intake that has been told to stop reads nothing more. -/
theorem ne_of_cancelled (hcancelled : i.cancelled = true) (hevent : i.event? e = some i') :
    (∀ m, e ≠ .own (.pull m)) ∧ e ≠ .own .streamEnds := by
  constructor
  · rintro m rfl
    simp [event?, step?, hcancelled] at hevent
  · rintro rfl
    simp [event?, step?, hcancelled] at hevent

theorem pulled_append (before after : List Event) :
    pulled (before ++ after) = pulled before ++ pulled after :=
  List.filterMap_append

theorem pulled_eq_nil (h : ∀ m, .own (.pull m) ∉ es) : pulled es = [] := by
  rw [pulled, List.filterMap_eq_nil_iff]
  intro e he
  unfold Event.pulled?
  split
  · exact absurd he (h _)
  · rfl

theorem Carried.event {i₀ : Intake} {j₀ : Journal} {before after : List Event}
    (carried : Carried i₀ j₀ after i j) (hbefore : Run c before i₀ j₀)
    (run : Run c (before ++ .cancel :: after) i j) (hevent : i.event? e = some i') :
    Carried i₀ j₀ (after ++ [e]) i' (note j (before ++ .cancel :: after) i e i') := by
  obtain ⟨hsilent, hdeaf, hfew, ⟨late, hlate, -⟩⟩ := carried
  have hcancelled : i.cancelled = true := run.counted.cancelled_iff.2 (by simp)
  obtain ⟨hpull, hends⟩ := ne_of_cancelled hcancelled hevent
  have hsilent' : ∀ m, .own (.pull m) ∉ after ++ [e] := by
    intro m hm
    rcases List.mem_append.1 hm with hm | hm
    · exact hsilent m hm
    · exact hpull m (List.mem_singleton.1 hm).symm
  refine ⟨hsilent', ?_, ?_, ?_⟩
  · intro hm
    rcases List.mem_append.1 hm with hm | hm
    · exact hdeaf hm
    · exact hends (List.mem_singleton.1 hm).symm
  · have hmoves := (happens_of_event? hevent).movesLeft_le hcancelled
    rw [List.countP_append, List.countP_singleton]
    omega
  · obtain ⟨new, hnew⟩ := handled_note j (before ++ .cancel :: after) i e i'
    refine ⟨late ++ new, by rw [← hnew, hlate, List.append_assoc], ?_⟩
    -- the messages at the moment of the cancellation are those of now
    have hall := (run.snoc hevent).whole
    have hnone : pulled (.cancel :: (after ++ [e])) = [] := pulled_eq_nil (by simpa using hsilent')
    rw [List.append_assoc, List.cons_append, pulled_append, hnone, List.append_nil, hbefore.whole,
      Journal.messages, Journal.messages, ← hnew, hlate] at hall
    simpa using hall.symm

/-- What comes after an intake was told to stop. -/
theorem Run.carried {before after : List Event} (h : Run c (before ++ .cancel :: after) i j) :
    ∃ i₀ j₀, Run c before i₀ j₀ ∧ Carried i₀ j₀ after i j := by
  induction after using List.reverseRecOn generalizing i j with
  | nil =>
    obtain ⟨i₀, j₀, hbefore, hevent, hnote⟩ := h.of_snoc
    cases hevent
    have hsame : j = j₀ := hnote
    subst hsame
    exact ⟨i₀, j, hbefore, by simp, by simp, Nat.le_of_eq (Nat.zero_add _), [], by simp, rfl⟩
  | append_singleton after e ih =>
    have hsplit : before ++ .cancel :: (after ++ [e]) = (before ++ .cancel :: after) ++ [e] := by
      simp
    rw [hsplit] at h
    obtain ⟨i', j', hrun, hevent, rfl⟩ := h.of_snoc
    obtain ⟨i₀, j₀, hbefore, hcarried⟩ := ih hrun
    exact ⟨i₀, j₀, hbefore, hcarried.event hbefore hrun hevent⟩

/-! ## Stopping -/

/-- What is true of an intake at every point of a run. -/
structure Stopping (c : Nat) (es : List Event) (i : Intake) (j : Journal) : Prop where
  /-- Every message that was pulled is done or in hand. -/
  whole : pulled es = j.handled.map (·.message) ++ (j.inHand.map Prod.fst).toList
  received : i.stats.received = (pulled es).length
  routed : i.stats.routed = j.handled.countP (·.verdict.isRouted)
  dropped : i.stats.dropped = j.handled.countP (!·.verdict.isRouted)
  /-- What became of a message has its reason in the message, in what the credential service said
  of it, or in a receiver that had gone. -/
  explained : ∀ h ∈ j.handled, Router.Explained h
  /-- What was routed is in its queue, or was taken off it. -/
  enqueued : ∀ p, .close p ∉ es →
    j.received.get p ++ (i.router.queues.get p).items = j.routedTo p
  carried : ∀ before after, es = before ++ .cancel :: after →
    ∃ i₀ j₀, Run c before i₀ j₀ ∧ Carried i₀ j₀ after i j
  /-- Once it has been told to stop, the intake waits for nothing but the answer about the message
  in hand and room for its source. -/
  goes_on : .cancel ∈ es → i.phase = .running →
    (i.router.current = none ∧ (i.step? .stop).isSome) ∨
    (∃ request identity, i.router.current = some (.resolving request identity) ∧
      ∀ answer, (i.step? (.lookup answer)).isSome) ∨
    ∃ p source, i.router.current = some (.sending p source) ∧
      ((i.step? .enqueue).isSome ∨
        .close p ∉ es ∧ (i.router.queues.get p).items.length = c)
  ended : i.phase = .ended →
    j.inHand = none ∧ i.stats.received = i.stats.routed + i.stats.dropped
  /-- Nothing but a crash of the credential service ends it with a message in hand. -/
  crashed : i.isOver = true → j.inHand ≠ none → ∃ text, .own (.crash text) ∈ es

theorem Behind.goes_on {r : Router} (h : Behind c es i j r) (hcancelled : i.cancelled = true)
    (hrunning : i.phase = .running) :
    (i.router.current = none ∧ (i.step? .stop).isSome) ∨
    (∃ request identity, i.router.current = some (.resolving request identity) ∧
      ∀ answer, (i.step? (.lookup answer)).isSome) ∨
    ∃ p source, i.router.current = some (.sending p source) ∧
      ((i.step? .enqueue).isSome ∨
        .close p ∉ es ∧ (i.router.queues.get p).items.length = c) := by
  have hover : i.isOver = false := by simp [isOver, hrunning]
  have hrouter : i.router = r := by simpa [hover] using h.router
  have kept := h.run.kept
  rw [← hrouter] at kept
  have hhand := kept.hand
  generalize hcurrent : i.router.current = current at hhand
  generalize j.inHand = x at hhand
  cases hhand with
  | none => exact .inl ⟨rfl, by simp [step?, isListening, hover, hcurrent, hcancelled]⟩
  | resolving =>
    refine .inr (.inl ⟨_, _, rfl, fun answer => ?_⟩)
    simp [step?, Router.step?, hover, hcurrent]
  | @sending _ _ source p =>
    refine .inr (.inr ⟨p, source, rfl, ?_⟩)
    cases hstep : i.router.step? .enqueue with
    | some r' => exact .inl (by simp [step?, hover, hstep])
    | none =>
      obtain ⟨hopen, hfull⟩ := (Router.enqueue_waits_iff hcurrent).1 hstep
      have hstocked := kept.stocked p
      refine .inr ⟨?_, Nat.le_antisymm hstocked.room (hstocked.capacity ▸ hfull)⟩
      rw [← close_mem_iff]
      exact hstocked.receiving_iff.1 hopen

/-- **An intake stops cleanly**, whenever it is told to. -/
theorem Run.stops_cleanly (h : Run c es i j) : Stopping c es i j := by
  obtain ⟨r, hr⟩ := h.behind
  have kept := hr.run.kept
  have counted := h.counted
  have hverdicts := hr.verdicts
  have hwhole := h.whole
  have hnone (hended : i.phase = .ended) : j.inHand = none :=
    kept.hand.eq_none_iff.1 (hr.settled hended)
  have hrouted : i.stats.routed = j.handled.countP (·.verdict.isRouted) := by
    rw [counted.measured.routed, hverdicts, List.countP_map]
    rfl
  have hdropped : i.stats.dropped = j.handled.countP (!·.verdict.isRouted) := by
    rw [counted.measured.dropped, hverdicts, List.countP_map]
    rfl
  constructor
  case whole => exact hwhole
  case received => exact counted.received
  case routed => exact hrouted
  case dropped => exact hdropped
  case explained => exact fun x hx => (kept.explained x hx).1
  case enqueued =>
    intro p hp
    rw [hr.items p]
    have hstocked := kept.stocked p
    exact hstocked.contents (hstocked.receiving_iff.2 fun hmem => hp (close_mem_iff.1 hmem))
  case carried =>
    rintro before after rfl
    exact h.carried
  case goes_on => exact fun hmem hrunning => hr.goes_on (counted.cancelled_iff.2 hmem) hrunning
  case crashed =>
    intro hover hhand
    cases hphase : i.phase with
    | running => simp [isOver, hphase] at hover
    | ended => exact absurd (hnone hphase) hhand
    | crashed text => exact ⟨text, counted.crashed text hphase⟩
  case ended =>
    intro hended
    refine ⟨hnone hended, ?_⟩
    rw [counted.received, hwhole, Journal.messages, hnone hended, hrouted, hdropped,
      Option.map_none, Option.toList_none, List.append_nil, List.length_map]
    simpa using List.length_eq_countP_add_countP (fun h : Router.Handled => h.verdict.isRouted)

theorem event?_pull {request : SourceRequest} {m : InboundMessage}
    (hready : (i.isListening && !i.cancelled) = true)
    (hdecode : SourceRequest.decode m.payload = .ok request) :
    i.event? (.own (.pull m)) =
      some { i.receive with router := i.router.proceed (.resolving request m.identity) } := by
  have hlistening := (Bool.and_eq_true _ _ ▸ hready).1
  simp only [event?, step?, if_pos hready, Router.step?, (phase_of_isListening hlistening).2,
    Option.map_some, Dispatch.start, hdecode]
  exact congrArg some (follow_same (i := i.receive)
    (r := i.router.proceed (.resolving request m.identity)) rfl)

/-- The intake is told to stop while it waits for room for its second message. The room comes, and
it stops with both messages routed. -/
theorem stops_cleanly_blocked : ∃ before after i j, Run 1 (before ++ .cancel :: after) i j ∧
    (∃ i₀ j₀, Run 1 before i₀ j₀ ∧ i₀.phase = .running ∧ i₀.step? .enqueue = none ∧
      j₀.handled.length = 1) ∧
    i.phase = .ended ∧ i.stats = ⟨2, 2, 0⟩ ∧ j.handled.map (·.message) = pulled before ∧
    Stopping 1 (before ++ .cancel :: after) i j := by
  let source := ResolvedSource.make (.known .aws) "5" "key" ⟨"7", none⟩
  have hfirst := ((Run.start (c := 1)).snoc (e := .own (.pull sampleMessage))
    (event?_pull rfl decode_sampleMessage)).snoc
    (e := .own (.lookup (.ok source))) rfl |>.snoc (e := .own .enqueue) rfl
  have hsecond := (hfirst.snoc (e := .own (.pull sampleMessage))
    (event?_pull rfl decode_sampleMessage)).snoc
    (e := .own (.lookup (.ok source))) rfl
  have hstopped := ((hsecond.snoc (e := .cancel) rfl).snoc (e := .receive .aws) rfl).snoc
    (e := .own .enqueue) rfl |>.snoc (e := .own .stop) rfl
  exact ⟨_, [.receive .aws, .own .enqueue, .own .stop], _, _, hstopped,
    ⟨_, _, hsecond, rfl, rfl, rfl⟩, rfl, rfl, rfl, hstopped.stops_cleanly⟩

end Intake

/-! ## The intake of a pipeline -/

theorem PerProvider.set_get {α : Type} (x : PerProvider α) (p : Provider) :
    x.set p (x.get p) = x := by
  cases p <;> rfl

/-- What a move of a pipeline is to its intake and the queues that the intake feeds. -/
def State.Move.atIntake? : State.Move → Option Intake.Event
  | .intake m => some (.own m)
  | .worker p .take => some (.receive p)
  | .worker p (.crash _) => some (.close p)
  | .worker p .finish => some (.close p)
  | .coordinator .seeSignal => some .cancel
  | .coordinator .seeExit => some .cancel
  | _ => none

theorem Router.step?_receive {r : Router} {p : Provider} {source : ResolvedSource}
    {rest : List ResolvedSource} (hitems : (r.queues.get p).items = source :: rest) :
    r.step? (.receive p) = some (r.putQueue p { r.queues.get p with items := rest }) := by
  simp only [step?, Queue.pop?, hitems, putQueue]

/-- The intake of a pipeline moves by its own moves, by what the workers do with their queues, and
by what the coordinator tells it. -/
theorem State.atIntake_of_step? {s t : State} {m : State.Move} (h : s.step? m = some t) :
    match m.atIntake? with
    | some e => s.intake.event? e = some t.intake
    | none => t.intake = s.intake := by
  cases State.step_of_step? h with
  | intake =>
    obtain ⟨i, hi, ht⟩ := Option.map_eq_some_iff.1 h
    rw [← ht]
    exact hi
  | @worker p _ b hb =>
    cases hb with
    | took _ hitems =>
      exact congrArg (Option.map fun r => { s.intake with router := r })
        (Router.step?_receive hitems)
    | crashed => rfl
    | finished => rfl
    | _ =>
      -- the worker leaves its queue as it is
      exact congrArg
        (fun q => { s.intake with router := { s.intake.router with queues := q } })
        (s.intake.router.queues.set_get p)
  | batcher => rfl
  | @coordinator k _ hk =>
    cases State.coordinatorStep?_eq_some_iff.1 hk <;> rfl
  | signal => rfl
  | elapse => rfl

/-- **The intake of a pipeline** runs as any intake does, whatever the other stages do. -/
theorem Run.intake_run {c : Settings} {ms : List State.Move} {s : State}
    (run : Run (State.start c) ms s) :
    ∃ j, Intake.Run c.capacity (ms.filterMap State.Move.atIntake?) s.intake j := by
  refine run.induction
    (motive := fun ms s =>
      ∃ j, Intake.Run c.capacity (ms.filterMap State.Move.atIntake?) s.intake j)
    ⟨_, .start⟩ fun ms s m t _ ih hm => ?_
  obtain ⟨j, hj⟩ := ih
  have hintake := State.atIntake_of_step? hm
  rw [filterMap_snoc]
  cases hmove : m.atIntake? with
  | some e =>
    rw [hmove] at hintake
    exact ⟨_, hj.snoc hintake⟩
  | none =>
    rw [hmove] at hintake
    refine ⟨j, ?_⟩
    rw [Option.toList_none, List.append_nil, hintake]
    exact hj

end Availability.Flow
