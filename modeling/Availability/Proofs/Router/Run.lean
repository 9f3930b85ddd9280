import Availability.Proofs.Pipeline.Counters

/-!
# Any run of a router

A router is handed messages, one after the other, any of which may be given up on; what is in its
queues is taken away, and their receivers may go, at any time. `Journal` tells what a run has
brought: the messages that are done, each with what the credential service said of it and what
became of it, and what was taken off the queues.

* `Step`, `step_of_step?`: all that a move of the router can do.
* `Explained`: what became of a message, by what it asks, what was said of it and who had gone.
* `Stocked`: what is in the queues, against what was put in and taken away.
* `Run.routing`: the two of them, the counters, and when a message has to wait.
-/

namespace Availability.Flow.Router

/-- A message that is done. -/
structure Handled where
  message : InboundMessage
  /-- What the credential service said, if it was asked. -/
  answer : Option (Except Error ResolvedSource)
  verdict : Verdict
  /-- The moves made before the one with which it was done. -/
  before : List Move

/-- The source that the credential service gave for a message. -/
def Handled.source? (h : Handled) : Option ResolvedSource :=
  match h.answer with
  | some (.ok source) => some source
  | _ => none

/-- What a run has brought. -/
structure Journal where
  /-- The messages that were handed over. -/
  given : List InboundMessage
  /-- The message in hand, and what the credential service said of it. -/
  inHand : Option (InboundMessage × Option (Except Error ResolvedSource))
  handled : List Handled
  /-- What was taken off each queue. -/
  received : PerProvider (List ResolvedSource)

namespace Journal

def empty : Journal := ⟨[], none, [], ⟨[], [], []⟩⟩

/-- The sources of the messages that were routed to a provider. -/
def routedTo (j : Journal) (p : Provider) : List ResolvedSource :=
  (j.handled.filter (·.verdict = .routed p)).filterMap Handled.source?

/-- The journal with a move that the router `r` makes. -/
def follow (j : Journal) (r : Router) : Move → Journal
  | .handle m => { j with given := j.given ++ [m], inHand := some (m, none) }
  | .lookup answer => { j with inHand := j.inHand.map fun x => (x.1, some answer) }
  | .abandon => { j with inHand := none }
  | .receive p =>
    { j with
      received := j.received.set p (j.received.get p ++ (r.queues.get p).items.head?.toList) }
  | _ => j

/-- The journal once the message in hand is done. -/
def settle (j : Journal) (ms : List Move) (v : Verdict) : Journal :=
  match j.inHand with
  | some (message, answer) =>
    { j with inHand := none, handled := j.handled ++ [⟨message, answer, v, ms⟩] }
  | none => j

/-- The journal after one more move, from `r` to `r'`, after the moves `ms`. -/
def note (j : Journal) (ms : List Move) (r : Router) (m : Move) (r' : Router) : Journal :=
  match r'.verdicts.drop r.verdicts.length with
  | [v] => (j.follow r m).settle ms v
  | _ => j.follow r m

end Journal

/-- The runs of a router whose queues have room for `c` sources each. -/
inductive Run (c : Nat) : List Move → Router → Journal → Prop where
  | start : Run c [] (bounded c) .empty
  | step {ms : List Move} {r r' : Router} {j : Journal} {m : Move} :
      Run c ms r j → r.step? m = some r' → Run c (ms ++ [m]) r' (j.note ms r m r')

/-! ## The steps -/

/-- The router with a queue changed. -/
def putQueue (r : Router) (p : Provider) (q : Queue ResolvedSource) : Router :=
  { r with queues := r.queues.set p q }

/-- All that a move of the router can do. -/
inductive Step (r : Router) : Move → Router → Prop where
  | malformed {m : InboundMessage} {fault : RequestFault} :
      r.current = none → SourceRequest.decode m.payload = .error fault →
      Step r (.handle m) (r.settle .malformed)
  | asked {m : InboundMessage} {request : SourceRequest} :
      r.current = none → SourceRequest.decode m.payload = .ok request →
      Step r (.handle m) (r.proceed (.resolving request m.identity))
  | dropped {request : SourceRequest} {identity : Principal} {v : Verdict}
      {answer : Except Error ResolvedSource} :
      r.current = some (.resolving request identity) → Dispatch.ofLookup answer = .finished v →
      Step r (.lookup answer) (r.settle v)
  | resolved {request : SourceRequest} {identity : Principal} {p : Provider}
      {source : ResolvedSource} :
      r.current = some (.resolving request identity) → source.providerTag = .known p →
      Step r (.lookup (.ok source)) { r with current := some (.sending p source) }
  | entered {p : Provider} {source : ResolvedSource} :
      r.current = some (.sending p source) → (r.queues.get p).receiving = true →
      (r.queues.get p).items.length < (r.queues.get p).capacity →
      Step r .enqueue ((r.putQueue p ((r.queues.get p).push source)).settle (.routed p))
  | refused {p : Provider} {source : ResolvedSource} :
      r.current = some (.sending p source) → (r.queues.get p).receiving = false →
      Step r .enqueue (r.settle .queueClosed)
  | abandoned {d : Dispatch} : r.current = some d → Step r .abandon { r with current := none }
  | received {p : Provider} {source : ResolvedSource} {rest : List ResolvedSource} :
      (r.queues.get p).items = source :: rest →
      Step r (.receive p) (r.putQueue p { r.queues.get p with items := rest })
  | closed {p : Provider} : Step r (.close p) (r.putQueue p (r.queues.get p).close)

theorem step_of_step? {r r' : Router} {m : Move} (h : r.step? m = some r') : Step r m r' := by
  cases m with
  | handle m =>
    simp only [step?] at h
    split at h
    · rename_i hcurrent
      cases hdecode : SourceRequest.decode m.payload with
      | error fault =>
        simp only [Dispatch.start, hdecode, proceed, Option.some.injEq] at h
        subst h
        exact .malformed hcurrent hdecode
      | ok request =>
        simp only [Dispatch.start, hdecode, Option.some.injEq] at h
        subst h
        exact .asked hcurrent hdecode
    · cases h
  | lookup answer =>
    simp only [step?] at h
    split at h
    · rename_i hcurrent
      cases hnext : Dispatch.ofLookup answer with
      | finished v =>
        simp only [hnext, proceed, Option.some.injEq] at h
        subst h
        exact .dropped hcurrent hnext
      | resolving => exact absurd hnext (Intake.ofLookup_ne_resolving _ _ _)
      | sending p source =>
        obtain ⟨rfl, htag⟩ := (Dispatch.ofLookup_sending_iff _ _ _).1 hnext
        simp only [hnext, proceed, Option.some.injEq] at h
        subst h
        exact .resolved hcurrent htag
    · cases h
  | enqueue =>
    simp only [step?] at h
    split at h
    · rename_i p source hcurrent
      split at h
      · rename_i q hq
        obtain ⟨hopen, hroom, rfl⟩ := (Queue.offer_entered_iff _ _ _).1 hq
        cases h
        exact .entered hcurrent hopen hroom
      · rename_i hq
        cases h
        exact .refused hcurrent ((Queue.offer_refused_iff _ _).1 hq)
      · cases h
    · cases h
  | abandon =>
    simp only [step?] at h
    split at h
    · rename_i hcurrent
      cases h
      exact .abandoned hcurrent
    · cases h
  | receive p =>
    simp only [step?] at h
    split at h
    · rename_i source q hpop
      have hitems := Queue.items_pop? hpop
      simp only [Queue.pop?, hitems, Option.some.injEq, Prod.mk.injEq, true_and] at hpop
      cases h
      rw [← hpop]
      exact .received hitems
    · cases h
  | close p =>
    cases h
    exact .closed

/-! ## What became of a message -/

/-- What became of a message is told by what it asks, by what the credential service said, and by
whether the receiver of its provider had gone. -/
structure Explained (h : Handled) : Prop where
  malformed_iff : h.verdict = .malformed ↔
    ∃ fault, SourceRequest.decode h.message.payload = .error fault
  /-- The credential service is asked about every other message. -/
  unasked_iff : h.answer = none ↔ h.verdict = .malformed
  notFound_iff : h.verdict = .notFound ↔ ∃ id, h.answer = some (.error (.notFound id))
  lookupFailed_iff : h.verdict = .lookupFailed ↔
    ∃ e, h.answer = some (.error e) ∧ ∀ id, e ≠ .notFound id
  noop_iff : h.verdict = .noop ↔
    ∃ source, h.answer = some (.ok source) ∧ source.providerTag = .noop
  unknown_iff : h.verdict = .unknownProvider ↔
    ∃ source, h.answer = some (.ok source) ∧ source.providerTag = .unknown
  queueClosed_iff : h.verdict = .queueClosed ↔
    ∃ source p, h.answer = some (.ok source) ∧ source.providerTag = .known p ∧
      .close p ∈ h.before
  routed_iff : ∀ p, h.verdict = .routed p ↔
    ∃ source, h.answer = some (.ok source) ∧ source.providerTag = .known p ∧ .close p ∉ h.before

section Explained

variable {m : InboundMessage} {ms : List Move}

theorem explained_malformed {fault : RequestFault}
    (hdecode : SourceRequest.decode m.payload = .error fault) :
    Explained ⟨m, none, .malformed, ms⟩ := by
  constructor <;> simp [hdecode]

theorem explained_failed {request : SourceRequest}
    (hdecode : SourceRequest.decode m.payload = .ok request) (e : Error) :
    Explained ⟨m, some (.error e), if e.isNotFound then .notFound else .lookupFailed, ms⟩ := by
  cases e <;> constructor <;> simp [hdecode, Error.isNotFound]

theorem explained_dropped {request : SourceRequest} {answer : Except Error ResolvedSource}
    {v : Verdict} (hdecode : SourceRequest.decode m.payload = .ok request)
    (hnext : Dispatch.ofLookup answer = .finished v) : Explained ⟨m, some answer, v, ms⟩ := by
  cases answer with
  | error e =>
    cases hnext
    exact explained_failed hdecode e
  | ok source =>
    simp only [Dispatch.ofLookup] at hnext
    split at hnext
    · cases hnext
    all_goals
      next htag =>
      cases hnext
      constructor <;> simp [hdecode, htag]

theorem explained_entered {request : SourceRequest} {source : ResolvedSource} {p : Provider}
    (hdecode : SourceRequest.decode m.payload = .ok request)
    (htag : source.providerTag = .known p) (hopen : Move.close p ∉ ms) :
    Explained ⟨m, some (.ok source), .routed p, ms⟩ := by
  constructor <;> simp [hdecode, htag, hopen]

theorem explained_refused {request : SourceRequest} {source : ResolvedSource} {p : Provider}
    (hdecode : SourceRequest.decode m.payload = .ok request)
    (htag : source.providerTag = .known p) (hclosed : Move.close p ∈ ms) :
    Explained ⟨m, some (.ok source), .queueClosed, ms⟩ := by
  constructor <;> simp [hdecode, htag, hclosed]

end Explained

/-! ## The queues -/

/-- What is in the queue of a provider after the moves `ms`, against the sources that were taken
off it and those that were routed to it. -/
structure Stocked (c : Nat) (ms : List Move) (p : Provider) (q : Queue ResolvedSource)
    (received routed : List ResolvedSource) : Prop where
  capacity : q.capacity = c
  room : q.items.length ≤ c
  receiving_iff : q.receiving = true ↔ .close p ∉ ms
  contents : q.receiving = true → received ++ q.items = routed
  /-- What a receiver leaves behind is gone with it. -/
  closed : q.receiving = false → q.items = []
  taken : received <+: routed

namespace Stocked

variable {c : Nat} {ms : List Move} {p : Provider} {q : Queue ResolvedSource}
  {received routed : List ResolvedSource} {m : Move}

theorem start : Stocked c [] p (.bounded c 1) [] [] := by
  constructor <;> simp [Queue.bounded]

/-- A move that leaves the queue as it is. -/
theorem same (h : Stocked c ms p q received routed) (hm : m ≠ .close p) :
    Stocked c (ms ++ [m]) p q received routed := by
  obtain ⟨hcapacity, hroom, hreceiving, hcontents, hclosed, htaken⟩ := h
  refine ⟨hcapacity, hroom, ?_, hcontents, hclosed, htaken⟩
  simp [hreceiving, hm.symm]

theorem push (h : Stocked c ms p q received routed) (source : ResolvedSource)
    (hopen : q.receiving = true) (hroom : q.items.length < q.capacity) :
    Stocked c ms p (q.push source) received (routed ++ [source]) := by
  obtain ⟨hcapacity, -, hreceiving, hcontents, -, htaken⟩ := h
  refine ⟨hcapacity, ?_, hreceiving, fun _ => ?_, fun hclosed => ?_, ?_⟩
  · rw [Queue.items_push, List.length_append, List.length_singleton]
    omega
  · rw [Queue.items_push, ← List.append_assoc, hcontents hopen]
  · rw [Queue.push, hopen] at hclosed
    cases hclosed
  · exact htaken.trans (List.prefix_append _ _)

theorem pop (h : Stocked c ms p q received routed) {source : ResolvedSource}
    {rest : List ResolvedSource} (hitems : q.items = source :: rest) :
    Stocked c ms p { q with items := rest } (received ++ [source]) routed := by
  obtain ⟨hcapacity, hroom, hreceiving, hcontents, hclosed, -⟩ := h
  have hopen : q.receiving = true := by
    cases hq : q.receiving with
    | true => rfl
    | false =>
      rw [hclosed hq] at hitems
      cases hitems
  have hall : received ++ [source] ++ rest = routed := by
    rw [← hcontents hopen, hitems, List.append_assoc, List.singleton_append]
  rw [hitems, List.length_cons] at hroom
  refine ⟨hcapacity, Nat.le_of_succ_le hroom, hreceiving, fun _ => hall, fun hq => ?_, ?_⟩
  · rw [hopen] at hq
    cases hq
  · rw [← hall]
    exact List.prefix_append _ _

theorem close (h : Stocked c ms p q received routed) :
    Stocked c (ms ++ [.close p]) p q.close received routed := by
  refine ⟨h.capacity, Nat.zero_le _, ?_, nofun, fun _ => rfl, h.taken⟩
  simp [Queue.close]

end Stocked

/-! ## The message in hand -/

/-- What the router has in hand is the message handed over last, for which it asks or whose source
it has been given. -/
inductive InHand : Option Dispatch →
    Option (InboundMessage × Option (Except Error ResolvedSource)) → Prop where
  | none : InHand none none
  | resolving {m : InboundMessage} {request : SourceRequest} :
      SourceRequest.decode m.payload = .ok request →
      InHand (some (.resolving request m.identity)) (some (m, none))
  | sending {m : InboundMessage} {request : SourceRequest} {source : ResolvedSource}
      {p : Provider} :
      SourceRequest.decode m.payload = .ok request → source.providerTag = .known p →
      InHand (some (.sending p source)) (some (m, some (.ok source)))

/-- The source that a message asks for. -/
def asked? (m : InboundMessage) : Option String :=
  (SourceRequest.decode m.payload).toOption.map (·.sourceId)

/-- What holds after the moves `ms`. -/
structure Kept (c : Nat) (ms : List Move) (r : Router) (j : Journal) : Prop where
  hand : InHand r.current j.inHand
  verdicts : r.verdicts = j.handled.map (·.verdict)
  measurements : r.measurements = r.verdicts.map fun v => .count v.counter 1
  lookups : r.lookups = j.given.filterMap asked?
  explained : ∀ h ∈ j.handled, Explained h ∧ h.before <+: ms
  stocked : ∀ p, Stocked c ms p (r.queues.get p) (j.received.get p) (j.routedTo p)

namespace Journal

variable {j : Journal} {ms : List Move} {r r' : Router} {m : Move} {v : Verdict} {p : Provider}

theorem note_same (h : r'.verdicts = r.verdicts) : j.note ms r m r' = j.follow r m := by
  simp [note, h]

theorem note_settle (h : r'.verdicts = r.verdicts) :
    j.note ms r m (r'.settle v) = (j.follow r m).settle ms v := by
  simp [note, Router.settle, h]

theorem handled_follow : (j.follow r m).handled = j.handled := by
  cases m <;> rfl

theorem routedTo_snoc_same {h : Handled} (hverdict : h.verdict = .routed p) {s : ResolvedSource}
    (hsource : h.source? = some s) :
    { j with handled := j.handled ++ [h] }.routedTo p = j.routedTo p ++ [s] := by
  simp [routedTo, List.filter_append, hverdict, hsource]

theorem routedTo_snoc_other {h : Handled} (hverdict : h.verdict ≠ .routed p) :
    { j with handled := j.handled ++ [h] }.routedTo p = j.routedTo p := by
  simp [routedTo, List.filter_append, hverdict]

end Journal

namespace Kept

variable {c : Nat} {ms : List Move} {r r' : Router} {j : Journal} {m : Move} {v : Verdict}

theorem start : Kept c [] (bounded c) .empty := by
  refine ⟨.none, rfl, rfl, rfl, fun h hh => absurd hh List.not_mem_nil, fun p => ?_⟩
  cases p <;> exact .start

/-- A move with which the message in hand is done. -/
theorem done (kept : Kept c ms r j) {message : InboundMessage}
    {answer : Option (Except Error ResolvedSource)}
    (hhand : (j.follow r m).inHand = some (message, answer)) (hverdicts : r'.verdicts = r.verdicts)
    (hmeasurements : r'.measurements = r.measurements)
    (hlookups : r'.lookups = (j.follow r m).given.filterMap asked?)
    (hexplained : Explained ⟨message, answer, v, ms⟩)
    (hstocked : ∀ p, Stocked c (ms ++ [m]) p (r'.queues.get p) ((j.follow r m).received.get p)
      (({ j with handled := j.handled ++ [⟨message, answer, v, ms⟩] } : Journal).routedTo p)) :
    Kept c (ms ++ [m]) (r'.settle v) (j.note ms r m (r'.settle v)) := by
  have hnote : j.note ms r m (r'.settle v) =
      { j.follow r m with inHand := none, handled := j.handled ++ [⟨message, answer, v, ms⟩] } := by
    rw [Journal.note_settle hverdicts, Journal.settle, hhand, Journal.handled_follow]
  rw [hnote]
  refine ⟨.none, ?_, ?_, hlookups, fun h hh => ?_, hstocked⟩
  · simp [settle, hverdicts, kept.verdicts]
  · simp [settle, hverdicts, hmeasurements, kept.measurements]
  · rcases List.mem_append.1 hh with hold | hnew
    · obtain ⟨hold, hbefore⟩ := kept.explained h hold
      exact ⟨hold, hbefore.trans (List.prefix_append _ _)⟩
    · rw [List.mem_singleton.1 hnew]
      exact ⟨hexplained, List.prefix_append _ _⟩

/-- A move with which no message is done. -/
theorem goOn (kept : Kept c ms r j) (hhand : InHand r'.current (j.follow r m).inHand)
    (hverdicts : r'.verdicts = r.verdicts) (hmeasurements : r'.measurements = r.measurements)
    (hlookups : r'.lookups = (j.follow r m).given.filterMap asked?)
    (hstocked : ∀ p, Stocked c (ms ++ [m]) p (r'.queues.get p) ((j.follow r m).received.get p)
      (j.routedTo p)) : Kept c (ms ++ [m]) r' (j.note ms r m r') := by
  rw [Journal.note_same hverdicts]
  have hhandled := Journal.handled_follow (j := j) (r := r) (m := m)
  refine ⟨hhand, ?_, ?_, hlookups, fun h hh => ?_, fun p => ?_⟩
  · rw [hverdicts, hhandled, kept.verdicts]
  · rw [hmeasurements, hverdicts, kept.measurements]
  · rw [hhandled] at hh
    obtain ⟨hold, hbefore⟩ := kept.explained h hh
    exact ⟨hold, hbefore.trans (List.prefix_append _ _)⟩
  · rw [Journal.routedTo, hhandled]
    exact hstocked p

theorem step (kept : Kept c ms r j) (hstep : Step r m r') :
    Kept c (ms ++ [m]) r' (j.note ms r m r') := by
  have hlookups := kept.lookups
  have hhand := kept.hand
  cases hstep with
  | @malformed msg fault hcurrent hdecode =>
    refine kept.done rfl rfl rfl ?_ (explained_malformed hdecode) fun p => ?_
    · simp [Journal.follow, hlookups, asked?, hdecode, Except.toOption]
    · rw [Journal.routedTo_snoc_other (by simp)]
      exact (kept.stocked p).same (by simp)
  | @asked msg request hcurrent hdecode =>
    refine kept.goOn (.resolving hdecode) rfl rfl ?_ fun p => (kept.stocked p).same (by simp)
    simp [Journal.follow, proceed, hlookups, asked?, hdecode, Except.toOption]
  | @dropped request identity v answer hcurrent hnext =>
    rw [hcurrent] at hhand
    generalize hinHand : j.inHand = x at hhand
    cases hhand with
    | resolving hdecode =>
      refine kept.done (by rw [Journal.follow, hinHand]; rfl) rfl rfl hlookups
        (explained_dropped hdecode hnext) fun p => ?_
      rw [Journal.routedTo_snoc_other (by rintro rfl; cases Intake.isRouted_of_ofLookup hnext)]
      exact (kept.stocked p).same (by simp)
  | @resolved request identity p source hcurrent htag =>
    rw [hcurrent] at hhand
    generalize hinHand : j.inHand = x at hhand
    cases hhand with
    | resolving hdecode =>
      refine kept.goOn ?_ rfl rfl hlookups fun p => (kept.stocked p).same (by simp)
      rw [Journal.follow, hinHand]
      exact .sending hdecode htag
  | @entered p source hcurrent hopen hroom =>
    rw [hcurrent] at hhand
    generalize hinHand : j.inHand = x at hhand
    cases hhand with
    | sending hdecode htag =>
      have hnever := ((kept.stocked p).receiving_iff).1 hopen
      refine kept.done hinHand rfl rfl hlookups (explained_entered hdecode htag hnever)
        fun q => ?_
      by_cases hq : q = p
      · subst hq
        rw [Journal.routedTo_snoc_same rfl rfl, putQueue, PerProvider.get_set_same]
        exact ((kept.stocked q).push source hopen hroom).same (by simp)
      · rw [Journal.routedTo_snoc_other (by simpa using Ne.symm hq), putQueue,
          PerProvider.get_set_other _ _ hq]
        exact (kept.stocked q).same (by simp)
  | @refused p source hcurrent hclosed =>
    rw [hcurrent] at hhand
    generalize hinHand : j.inHand = x at hhand
    cases hhand with
    | sending hdecode htag =>
      -- a queue refuses only after its receiver was closed, before this move
      have hgone : Move.close p ∈ ms := by
        by_cases hmem : Move.close p ∈ ms
        · exact hmem
        · rw [((kept.stocked p).receiving_iff).2 hmem] at hclosed
          cases hclosed
      refine kept.done hinHand rfl rfl hlookups (explained_refused hdecode htag hgone)
        fun q => ?_
      rw [Journal.routedTo_snoc_other (by simp)]
      exact (kept.stocked q).same (by simp)
  | @abandoned d hcurrent =>
    exact kept.goOn .none rfl rfl hlookups fun p => (kept.stocked p).same (by simp)
  | @received p source rest hitems =>
    refine kept.goOn hhand rfl rfl hlookups fun q => ?_
    by_cases hq : q = p
    · subst hq
      simp only [putQueue, Journal.follow, PerProvider.get_set_same, hitems, List.head?_cons,
        Option.toList_some]
      exact ((kept.stocked q).pop hitems).same (by simp)
    · simp only [putQueue, Journal.follow, PerProvider.get_set_other _ _ hq]
      exact (kept.stocked q).same (by simp)
  | @closed p =>
    refine kept.goOn hhand rfl rfl hlookups fun q => ?_
    by_cases hq : q = p
    · subst hq
      simp only [putQueue, PerProvider.get_set_same]
      exact (kept.stocked q).close
    · simp only [putQueue, PerProvider.get_set_other _ _ hq]
      exact (kept.stocked q).same (by simpa using Ne.symm hq)

end Kept

theorem Run.kept {c : Nat} {ms : List Move} {r : Router} {j : Journal} (h : Run c ms r j) :
    Kept c ms r j := by
  induction h with
  | start => exact .start
  | step _ hstep ih => exact ih.step (step_of_step? hstep)

/-! ## Runs -/

/-- What is true of a router at every point of a run. -/
structure Routing (c : Nat) (ms : List Move) (r : Router) (j : Journal) : Prop where
  /-- A queue whose receiver is there holds, in their order, the sources of the messages that were
  routed to it, less those that were taken off it. -/
  contents : ∀ p, .close p ∉ ms → j.received.get p ++ (r.queues.get p).items = j.routedTo p
  room : ∀ p, (r.queues.get p).items.length ≤ c
  /-- A message whose source is known waits only for room in an open queue, and one whose source
  is not known only for the credential service. -/
  waits_iff : ∀ p source, r.current = some (.sending p source) →
    (r.step? .enqueue = none ↔ .close p ∉ ms ∧ (r.queues.get p).items.length = c)
  answered : ∀ request identity, r.current = some (.resolving request identity) →
    ∀ answer, (r.step? (.lookup answer)).isSome
  accepted : r.current = none → ∀ m, (r.step? (.handle m)).isSome
  abandoned : ∀ r', r.step? .abandon = some r' →
    r'.queues = r.queues ∧ r'.measurements = r.measurements ∧ r'.verdicts = r.verdicts
  dropped : ∀ m r' v, r.step? m = some r' → r'.verdicts = r.verdicts ++ [v] →
    v.isRouted = false → r'.queues = r.queues
  hand : InHand r.current j.inHand
  lookups : r.lookups = j.given.filterMap asked?
  verdicts : r.verdicts = j.handled.map (·.verdict)
  explained : ∀ h ∈ j.handled, Explained h ∧ h.before <+: ms
  measured : r.measurements = j.handled.map fun h => .count h.verdict.counter 1
  counted : ∀ k, Measurement.total k r.measurements = j.handled.countP (·.verdict.counter = k)

theorem queues_of_dropped {r r' : Router} {m : Move} {v : Verdict} (hstep : Step r m r')
    (hverdicts : r'.verdicts = r.verdicts ++ [v]) (hv : v.isRouted = false) :
    r'.queues = r.queues := by
  cases hstep with
  | entered =>
    cases (List.append_cancel_left hverdicts)
    cases hv
  | received => simp [putQueue] at hverdicts
  | closed => simp [putQueue] at hverdicts
  | _ => rfl

theorem enqueue_waits_iff {r : Router} {p : Provider} {source : ResolvedSource}
    (h : r.current = some (.sending p source)) :
    r.step? .enqueue = none ↔ (r.queues.get p).receiving = true ∧
      (r.queues.get p).capacity ≤ (r.queues.get p).items.length := by
  rw [← Queue.offer_waits_iff _ source]
  simp only [step?, h]
  cases (r.queues.get p).offer source <;> simp

/-- Whatever is handed over, given up on, taken away or closed, the queues of a router hold what it
has routed, what became of each message has its reason, and each is counted once. -/
theorem Run.routing {c : Nat} {ms : List Move} {r : Router} {j : Journal} (h : Run c ms r j) :
    Routing c ms r j := by
  have kept := h.kept
  have hmeasured : r.measurements = j.handled.map fun h => .count h.verdict.counter 1 := by
    rw [kept.measurements, kept.verdicts, List.map_map]
    rfl
  constructor
  case contents =>
    intro p hp
    exact (kept.stocked p).contents ((kept.stocked p).receiving_iff.2 hp)
  case room => exact fun p => (kept.stocked p).room
  case waits_iff =>
    intro p source hcurrent
    have hroom := (kept.stocked p).room
    rw [enqueue_waits_iff hcurrent, (kept.stocked p).receiving_iff, (kept.stocked p).capacity]
    exact and_congr_right fun _ =>
      ⟨fun hfull => Nat.le_antisymm hroom hfull, fun hfull => Nat.le_of_eq hfull.symm⟩
  case answered =>
    intro request identity hcurrent answer
    simp [step?, hcurrent]
  case accepted =>
    intro hcurrent m
    simp [step?, hcurrent]
  case abandoned =>
    intro r' hr'
    cases step_of_step? hr'
    exact ⟨rfl, rfl, rfl⟩
  case dropped =>
    intro m r' v hr' hverdicts hv
    exact queues_of_dropped (step_of_step? hr') hverdicts hv
  case hand => exact kept.hand
  case lookups => exact kept.lookups
  case verdicts => exact kept.verdicts
  case explained => exact kept.explained
  case measured => exact hmeasured
  case counted =>
    intro k
    rw [kept.measurements, total_verdicts, kept.verdicts, List.countP_map]
    rfl

theorem step?_handle {r : Router} {m : InboundMessage} {request : SourceRequest}
    (hcurrent : r.current = none) (hdecode : SourceRequest.decode m.payload = .ok request) :
    r.step? (.handle m) = some (r.proceed (.resolving request m.identity)) := by
  simp only [step?, hcurrent, Dispatch.start, hdecode]

theorem step?_handle_malformed {r : Router} {m : InboundMessage} {fault : RequestFault}
    (hcurrent : r.current = none) (hdecode : SourceRequest.decode m.payload = .error fault) :
    r.step? (.handle m) = some (r.settle .malformed) := by
  simp only [step?, hcurrent, Dispatch.start, hdecode, proceed]

/-- One message is routed; a second one finds the queue full and is given up on; a third one is no
request; the fourth one comes too late for its receiver; a fifth one goes where the first one has
been taken away. -/
theorem routing_full_queue : ∃ ms r j, Run 1 ms r j ∧ .abandon ∈ ms ∧
    r.verdicts = [.routed .aws, .malformed, .queueClosed, .routed .aws] ∧ Routing 1 ms r j := by
  have hdecode := decode_sampleMessage
  obtain ⟨fault, hmalformed⟩ : ∃ fault, SourceRequest.decode [] = .error fault := ⟨_, rfl⟩
  let aws := ResolvedSource.make (.known .aws) "5" "key" ⟨"7", none⟩
  let azure := ResolvedSource.make (.known .azure) "6" "key" ⟨"7", none⟩
  have hfirst := ((Run.start (c := 1)).step (step?_handle rfl hdecode)).step
    (m := .lookup (.ok aws)) rfl |>.step (m := .enqueue) rfl
  have hsecond := (hfirst.step (step?_handle rfl hdecode)).step (m := .lookup (.ok aws)) rfl
    |>.step (m := .abandon) rfl
  have hthird := hsecond.step (step?_handle_malformed (m := ⟨[], ⟨"7", none⟩⟩) rfl hmalformed)
  have hfourth := ((hthird.step (m := .close .azure) rfl).step (step?_handle rfl hdecode)).step
    (m := .lookup (.ok azure)) rfl |>.step (m := .enqueue) rfl
  have hfifth := ((hfourth.step (m := .receive .aws) rfl).step (step?_handle rfl hdecode)).step
    (m := .lookup (.ok aws)) rfl |>.step (m := .enqueue) rfl
  exact ⟨_, _, _, hfifth, by simp, rfl, hfifth.routing⟩

end Availability.Flow.Router
