import Availability.Proofs.Pipeline.Draining
import Availability.Proofs.Pipeline.Handover
import Availability.Proofs.Text.Quoted

/-!
# Crashes are contained

A task that crashes takes down what it holds and nothing else: the others run to their end, and
what has come to the batcher goes to the sink. The pipeline then returns the failure of one task,
the first in the order in which the coordinator waits for them, whichever crashed first.

* `Task.message`, `Task.failure_inj`: what is said of the crash of a task, and that it tells which
  task it was and with what text it crashed.
* `State.crash?`: with what text a task has crashed; `Run.crash?_iff`: its own, read off the run.
* `State.failure?_eq`: what the coordinator returns is the first failure in `Task.all`.
* `State.puts`: the results that the workers have put on the result queue; `Run.passed_puts`: they
  have all gone to the sink once a batcher that has not crashed is over.
* `Contained`, `Run.contained`: what becomes of a pipeline in which tasks crash.
-/

namespace Availability.Flow

open State

/-! ## Tasks -/

/-- What the coordinator waits for. -/
inductive Task where
  | intake
  | worker (p : Provider)
  | batcher

namespace Task

/-- The tasks, in the order in which the coordinator waits for them. -/
def all : List Task := [.intake, .worker .aws, .worker .azure, .worker .gcp, .batcher]

/-- The move by which a task crashes. -/
def crashing : Task → String → State.Move
  | .intake, text => .intake (.crash text)
  | .worker p, text => .worker p (.crash text)
  | .batcher, text => .batcher (.crash text)

/-- What a task is called. -/
def title : Task → String
  | .intake => "intake task"
  | .worker .aws => "aws worker"
  | .worker .azure => "azure worker"
  | .worker .gcp => "gcp worker"
  | .batcher => "batcher task"

/-- What is said of the crash of a task. -/
def message (task : Task) (text : String) : String :=
  task.title ++ " panicked: task N panicked with message " ++ Text.quoted text

/-- The error that stands for the crash of a task. -/
def failure (task : Task) (text : String) : Error := .internal (task.message text)

theorem title_append (task : Task) : task.title ++ " panicked: " = match task with
    | .intake => "intake task panicked: "
    | .worker p => p.name ++ " worker panicked: "
    | .batcher => "batcher task panicked: " := by
  rcases task with _ | ⟨⟨⟩⟩ | _ <;> rfl

theorem message_eq (task : Task) (text : String) :
    task.message text = task.title ++ " panicked: " ++ crashReport text := by
  have hwords : " panicked: task N panicked with message " =
      " panicked: " ++ "task N panicked with message " := by decide
  calc task.message text
      = task.title ++ (" panicked: " ++ "task N panicked with message ") ++ Text.quoted text :=
        congrArg (task.title ++ · ++ Text.quoted text) hwords
    _ = task.title ++ " panicked: " ++ "task N panicked with message " ++ Text.quoted text :=
        congrArg (· ++ Text.quoted text) (String.append_assoc ..).symm
    _ = task.title ++ " panicked: " ++ crashReport text := String.append_assoc ..

/-- No two tasks are called by names that begin alike. -/
theorem take_message (task : Task) (text : String) :
    (task.message text).toList.take 2 = match task with
      | .intake => ['i', 'n']
      | .worker .aws => ['a', 'w']
      | .worker .azure => ['a', 'z']
      | .worker .gcp => ['g', 'c']
      | .batcher => ['b', 'a'] := by
  rcases task with _ | ⟨⟨⟩⟩ | _ <;> rw [message, String.append_assoc, String.toList_append] <;> rfl

/-- **A failure tells which task crashed and with what text.** -/
theorem failure_inj {task task' : Task} {text text' : String} :
    task.failure text = task'.failure text' ↔ task = task' ∧ text = text' := by
  constructor
  · intro h
    have hmessage : task.message text = task'.message text' := Error.internal.inj h
    have htask : task = task' := by
      have hfront := congrArg (fun s : String => s.toList.take 2) hmessage
      simp only [take_message] at hfront
      rcases task with _ | ⟨⟨⟩⟩ | _ <;> rcases task' with _ | ⟨⟨⟩⟩ | _ <;>
        first | rfl | cases hfront
    subst htask
    exact ⟨rfl, Text.quoted_inj.1 ((String.append_right_inj _).1 hmessage)⟩
  · rintro ⟨rfl, rfl⟩
    rfl

theorem mem_all (task : Task) : task ∈ all := by
  rcases task with _ | p | _
  · simp [all]
  · cases p <;> simp [all]
  · simp [all]

theorem crashing_inj {task : Task} {text text' : String} :
    task.crashing text = task.crashing text' ↔ text = text' := by
  cases task <;> simp [crashing]

end Task

/-! ## Crashes -/

/-- With what text the intake has crashed, if it has. -/
def Intake.crash? (i : Intake) : Option String :=
  match i.phase with
  | .crashed text => some text
  | _ => none

/-- With what text a worker has crashed, if it has. -/
def Worker.crash? (w : Worker) : Option String :=
  match w.phase with
  | .crashed text => some text
  | _ => none

/-- With what text the batcher has crashed, if it has. -/
def Batcher.crash? (b : Batcher) : Option String :=
  match b.phase with
  | .crashed text => some text
  | _ => none

theorem Batcher.crash?_eq_none_iff (b : Batcher) : b.crash? = none ↔ b.isCrashed = false := by
  unfold crash? isCrashed
  cases b.phase <;> simp

theorem Worker.crash?_of_at_work {w : Worker} (h : w.isOver = false) : w.crash? = none := by
  unfold isOver at h
  unfold crash?
  cases hphase : w.phase <;> simp_all

theorem Batcher.crash?_of_at_work {b : Batcher} (h : b.isOver = false) : b.crash? = none :=
  b.crash?_eq_none_iff.2 (isCrashed_of_at_work h)

theorem Intake.Step.crash? {i j : Intake} {m : Intake.Move} (h : Intake.Step i m j) :
    (∃ text, m = .crash text ∧ j.crash? = some text) ∨
      (∀ text, m ≠ .crash text) ∧ j.crash? = none := by
  have hrunning := h.running
  cases h with
  | crashed => exact .inl ⟨_, rfl, rfl⟩
  | streamEnded => exact .inr ⟨by simp, rfl⟩
  | stopped => exact .inr ⟨by simp, rfl⟩
  | _ => exact .inr ⟨by simp, by simp [Intake.crash?, Intake.settle, Intake.receive, Intake.hold,
      Intake.enqueue, hrunning]⟩

theorem Worker.Step.crash? {b b' : Worker.Bench} {m : Worker.Move} (h : Worker.Step b m b') :
    (∃ text, m = .crash text ∧ b'.worker.crash? = some text) ∨
      (∀ text, m ≠ .crash text) ∧ b'.worker.crash? = none := by
  cases h with
  | crashed => exact .inl ⟨_, rfl, rfl⟩
  | _ => exact .inr ⟨by simp, rfl⟩

theorem Batcher.Bench.Step.crash? {b b' : Batcher.Bench} {m : Batcher.Move}
    (h : Batcher.Bench.Step b (.own m) b') :
    (∃ text, m = .crash text ∧ b'.batcher.crash? = some text) ∨
      (∀ text, m ≠ .crash text) ∧ b'.batcher.crash? = none := by
  cases h with
  | crashed => exact .inl ⟨_, rfl, rfl⟩
  | gathered hphase => exact .inr ⟨by simp, by simp [Batcher.crash?, gather, advance, hphase]⟩
  | idled hphase => exact .inr ⟨by simp, by simp [Batcher.crash?, ticked, hphase]⟩
  | @answered _ trigger =>
    exact .inr ⟨by simp, by cases trigger <;> simp [Batcher.crash?]⟩
  | _ => exact .inr ⟨by simp, rfl⟩

namespace State

variable {s t : State} {m : Move}

/-- With what text a task has crashed, if it has. -/
def crash? (s : State) : Task → Option String
  | .intake => s.intake.crash?
  | .worker p => (s.workers.get p).crash?
  | .batcher => s.batcher.crash?

/-- Whether a task has run to its end. -/
def HasEnded (s : State) : Task → Prop
  | .intake => s.intake.phase = .ended
  | .worker p => (s.workers.get p).phase = .ended
  | .batcher => s.batcher.phase = .ended

theorem hasEnded_of_crash?_eq_none (hover : s.allOver = true) {task : Task}
    (hcalm : s.crash? task = none) : s.HasEnded task := by
  obtain ⟨hintake, hworkers, hbatcher⟩ := (allOver_iff s).1 hover
  cases task with
  | intake =>
    simp only [crash?, HasEnded, Intake.crash?, Intake.isOver] at hcalm hintake ⊢
    cases hphase : s.intake.phase <;> simp_all
  | worker p =>
    have hover := hworkers p
    simp only [crash?, HasEnded, Worker.crash?, Worker.isOver] at hcalm hover ⊢
    cases hphase : (s.workers.get p).phase <;> simp_all
  | batcher => exact Batcher.ended_of_over hbatcher ((Batcher.crash?_eq_none_iff _).1 hcalm)

/-- **A task crashes by its own move** and by no other, and stays crashed. -/
theorem Step.crash? (h : Step s m t) (task : Task) :
    (∃ text, m = task.crashing text ∧ s.crash? task = none ∧ t.crash? task = some text) ∨
      (∀ text, m ≠ task.crashing text) ∧ t.crash? task = s.crash? task := by
  cases h with
  | intake hi =>
    cases task with
    | intake =>
      have hnone : s.intake.crash? = none := by simp [Intake.crash?, hi.running]
      obtain ⟨text, rfl, hafter⟩ | ⟨hm, hafter⟩ := hi.crash?
      · exact .inl ⟨text, rfl, hnone, hafter⟩
      · exact .inr ⟨fun text heq => hm text (by cases heq; rfl), hafter.trans hnone.symm⟩
    | worker p => exact .inr ⟨nofun, rfl⟩
    | batcher => exact .inr ⟨nofun, rfl⟩
  | @worker p _ b hb =>
    cases task with
    | intake => exact .inr ⟨nofun, rfl⟩
    | worker q =>
      by_cases hqp : q = p
      · subst hqp
        have hnone : (s.workers.get q).crash? = none := Worker.crash?_of_at_work hb.at_work
        simp only [State.crash?, workers_putBench_same]
        obtain ⟨text, rfl, hafter⟩ | ⟨hm, hafter⟩ := hb.crash?
        · exact .inl ⟨text, rfl, hnone, hafter⟩
        · exact .inr ⟨fun text heq => hm text (by cases heq; rfl), hafter.trans hnone.symm⟩
      · refine .inr ⟨fun text heq => hqp (by cases heq; rfl), ?_⟩
        simp only [State.crash?, workers_putBench_other _ _ hqp]
    | batcher => exact .inr ⟨nofun, rfl⟩
  | batcher hb =>
    cases task with
    | intake => exact .inr ⟨nofun, rfl⟩
    | worker p => exact .inr ⟨nofun, rfl⟩
    | batcher =>
      have hnone : s.batcher.crash? = none := Batcher.crash?_of_at_work hb.at_work
      obtain ⟨text, rfl, hafter⟩ | ⟨hm, hafter⟩ := hb.crash?
      · exact .inl ⟨text, rfl, hnone, hafter⟩
      · exact .inr ⟨fun text heq => hm text (by cases heq; rfl), hafter.trans hnone.symm⟩
  | coordinator hc =>
    obtain ⟨_, _, rfl⟩ := coordinatorStep?_frame hc
    exact .inr ⟨by cases task <;> nofun, by cases task <;> rfl⟩
  | signal => exact .inr ⟨by cases task <;> nofun, by cases task <;> rfl⟩
  | elapse => exact .inr ⟨by cases task <;> nofun, by cases task <;> rfl⟩

/-- A batcher crashes before its first move if it cannot be made. -/
theorem crash?_start (c : Settings) (task : Task) (text : String) :
    (start c).crash? task = some text ↔
      task = .batcher ∧ Batcher.startFault? c.batchSize c.tickMs = some text := by
  cases task with
  | intake => exact ⟨nofun, nofun⟩
  | worker p => cases p <;> exact ⟨nofun, nofun⟩
  | batcher =>
    simp only [crash?, Batcher.crash?, start, Batcher.start, true_and]
    cases Batcher.startFault? c.batchSize c.tickMs <;> simp

/-- **Which failure is returned**: that of the first task that has crashed. -/
theorem failure?_eq (s : State) :
    s.failure? = Task.all.findSome? fun task => (s.crash? task).map task.failure := by
  have hcons : ∀ (f : Task → Option Error) task rest,
      (task :: rest).findSome? f = (f task).or (rest.findSome? f) := by
    intro f task rest
    rw [List.findSome?_cons]
    cases f task <;> rfl
  have hintake : (s.crash? .intake).map Task.intake.failure = match s.intake.phase with
      | .crashed text => some (.internal ("intake task panicked: " ++ crashReport text))
      | _ => none := by
    simp only [crash?, Intake.crash?]
    cases s.intake.phase <;> simp [Task.failure, Task.message_eq, Task.title_append]
  have hworker : ∀ p, (s.crash? (.worker p)).map (Task.worker p).failure =
      match (s.workers.get p).phase with
      | .crashed text => some (.internal (p.name ++ " worker panicked: " ++ crashReport text))
      | _ => none := by
    intro p
    simp only [crash?, Worker.crash?]
    cases (s.workers.get p).phase <;> simp [Task.failure, Task.message_eq, Task.title_append]
  have hbatcher : (s.crash? .batcher).map Task.batcher.failure = match s.batcher.phase with
      | .crashed text => some (.internal ("batcher task panicked: " ++ crashReport text))
      | _ => none := by
    simp only [crash?, Batcher.crash?]
    cases s.batcher.phase <;> simp [Task.failure, Task.message_eq, Task.title_append]
  simp only [Task.all, hcons, List.findSome?_nil, Option.or_none, failure?,
    Option.orElse_eq_orElse, Option.orElse_eq_or]
  exact (congr (congrArg _ hintake) (congr (congrArg _ (hworker .aws)) (congr (congrArg _
    (hworker .azure)) (congr (congrArg _ (hworker .gcp)) hbatcher)))).symm

/-! ## What is put on the result queue -/

/-- The result that a move puts on the result queue, if it does. -/
def put? (s : State) : Move → Option ProbeResult
  | .worker p .offer =>
    match (s.workers.get p).phase with
    | .offering r =>
      match s.results.offer r with
      | .entered _ => some r
      | _ => none
    | _ => none
  | _ => none

/-- The results that the workers put on the result queue in a run, in order. -/
def puts (s : State) : List Move → List ProbeResult
  | [] => []
  | m :: ms => (s.put? m).toList ++ match s.step? m with
    | some t => t.puts ms
    | none => []

theorem put?_of_not_offer (s : State) (h : History) (hm : ∀ p, m ≠ .worker p .offer) :
    s.put? m = none ∧ (h.note m).entered = h.entered := by
  cases m with
  | worker p m =>
    cases m with
    | offer => exact absurd rfl (hm p)
    | _ => exact ⟨rfl, rfl⟩
  | intake m => cases m <;> exact ⟨rfl, rfl⟩
  | batcher m => cases m <;> exact ⟨rfl, rfl⟩
  | _ => exact ⟨rfl, rfl⟩

end State

open State

section

variable {c : Settings} {ms : List State.Move} {s t : State}

theorem Run.puts_snoc (run : Run t ms s) (m : State.Move) :
    t.puts (ms ++ [m]) = t.puts ms ++ (s.put? m).toList := by
  induction run with
  | nil s =>
    simp only [List.nil_append, puts]
    cases s.step? m <;> simp
  | cons hm _ ih => simp only [List.cons_append, puts, hm, ih, List.append_assoc]

/-- What the workers put on the result queue are the results of the checks that entered it. -/
theorem Run.puts_eq (run : Run (State.start c) ms s) (hcalm : s.batcher.isCrashed = false) :
    (State.start c).puts ms = (History.of ms).entered.map Check.result := by
  revert hcalm
  refine run.induction (motive := fun ms s => s.batcher.isCrashed = false →
    (State.start c).puts ms = (History.of ms).entered.map Check.result)
    (fun _ => rfl) fun ms s m t run ih hm hcalm => ?_
  have hstep := step_of_step? hm
  have hbefore := hstep.batcher_calm hcalm
  rw [run.puts_snoc, ih hbefore, History.of_snoc]
  by_cases hoffer : ∃ p, m = .worker p .offer
  · obtain ⟨p, rfl⟩ := hoffer
    cases hstep with
    | worker hb =>
      cases hb with
      | @entered r hphase hopen hroom =>
        obtain ⟨k, hnext, hk, -⟩ := (run.lined p).offer_next hphase hbefore
        have hput : s.put? (.worker p .offer) = some r := by
          have henters := (Queue.offer_entered_iff s.results _ r).2 ⟨hopen, hroom, rfl⟩
          simp only [put?, show (s.workers.get p).phase = _ from hphase, henters]
        have hnote : ((History.of ms).note (.worker p .offer)).entered =
            (History.of ms).entered ++ [k] := by simp [History.note, hnext]
        rw [hput, hnote, List.map_append, Option.toList_some, ← hk]
        rfl
      | refused _ hclosed =>
        have hopen := run.wired.results_receiving
        rw [hbefore, show s.results.receiving = false from hclosed] at hopen
        cases hopen
  · obtain ⟨hput, hnote⟩ := s.put?_of_not_offer (History.of ms) fun p hp => hoffer ⟨p, hp⟩
    rw [hput, hnote]
    exact List.append_nil _

/-- **All that was put on the result queue has gone to the sink**, each result once and in order,
once the batcher has ended. -/
theorem Run.passed_puts (run : Run (State.start c) ms s) (hended : s.batcher.phase = .ended) :
    ∃ stamps, stamps.length = ((State.start c).puts ms).length ∧
      s.passed = stamped c.topic ((State.start c).puts ms) stamps := by
  obtain ⟨es, proj⟩ := run.projected
  have hall := (proj.delivered_all hended).1
  have hputs := run.puts_eq (by simp [Batcher.isCrashed, hended])
  refine ⟨(s.delivered (.of ms)).map Prod.snd, ?_, ?_⟩
  · rw [hputs, ← hall, List.length_map, List.length_map, List.length_map]
  · have hzip : ((s.delivered (.of ms)).map Prod.fst).zip ((s.delivered (.of ms)).map Prod.snd) =
        s.delivered (.of ms) := by
      rw [List.zip_map']
      exact List.map_id _
    rw [hputs, stamped_eq, ← hall, hzip]
    exact proj.passed_eq

/-! ## Crashes of a run -/

/-- A task crashes in a run by a move of its own, or the batcher as it is made. -/
def Crashes (c : Settings) (ms : List State.Move) (task : Task) (text : String) : Prop :=
  task.crashing text ∈ ms ∨
    task = .batcher ∧ Batcher.startFault? c.batchSize c.tickMs = some text

/-- **With what text a task has crashed**: its own, at any moment of the run. -/
theorem Run.crash?_iff (run : Run (State.start c) ms s) (task : Task) (text : String) :
    s.crash? task = some text ↔ Crashes c ms task text := by
  refine run.induction
    (motive := fun ms s => ∀ text, s.crash? task = some text ↔ Crashes c ms task text)
    (fun text => by simp [crash?_start, Crashes]) (fun ms s m t _ ih hm text => ?_) text
  simp only [Crashes] at ih ⊢
  obtain ⟨text', rfl, hnone, hsome⟩ | ⟨hother, hsame⟩ := (step_of_step? hm).crash? task
  · have hnever := (not_congr (ih text)).1 (by simp [hnone])
    rw [not_or] at hnever
    rw [hsome, List.mem_append, List.mem_singleton, Task.crashing_inj]
    simp only [hnever.1, hnever.2, false_or, or_false, Option.some.injEq]
    exact eq_comm
  · have hnot : task.crashing text ≠ m := fun heq => hother text heq.symm
    rw [hsame, ih text, List.mem_append, List.mem_singleton]
    simp only [hnot, or_false]

theorem Run.crash?_eq_none_iff (run : Run (State.start c) ms s) (task : Task) :
    s.crash? task = none ↔ ∀ text, ¬ Crashes c ms task text := by
  rw [Option.eq_none_iff_forall_ne_some]
  exact forall_congr' fun text => not_congr (run.crash?_iff task text)

theorem Crashes.append {task : Task} {text : String} (h : Crashes c ms task text)
    (more : List State.Move) : Crashes c (ms ++ more) task text :=
  h.imp_left (List.mem_append_left _)

/-! ## What a crash comes to -/

/-- What becomes of a pipeline whose stages have come to their end, when it returns `r`. -/
structure Contained (c : Settings) (ms : List State.Move) (s : State)
    (r : Except Error Report) : Prop where
  /-- The failure returned is that of the first task that crashed, in the order of the tasks. It
  tells which task that is, and with what text it crashed. -/
  named : ∃ before task after text, Task.all = before ++ task :: after ∧
    (∀ other ∈ before, ∀ text, ¬ Crashes c ms other text) ∧ Crashes c ms task text ∧
    r = .error (.internal
      (task.title ++ " panicked: task N panicked with message " ++ Text.quoted text)) ∧
    ∀ task' text', r = .error (task'.failure text') → task' = task ∧ text' = text
  ended : ∀ task, (∀ text, ¬ Crashes c ms task text) → s.HasEnded task
  delivered : (∀ text, ¬ Crashes c ms .batcher text) → ∃ stamps,
    stamps.length = ((State.start c).puts ms).length ∧
      s.passed = stamped c.topic ((State.start c).puts ms) stamps

theorem Run.contained_of_allOver (run : Run (State.start c) ms s) (hover : s.allOver = true)
    {task : Task} {text : String} (hcrashes : Crashes c ms task text) (reason : Reason) :
    Contained c ms s (s.drained reason) := by
  have hended : ∀ task, (∀ text, ¬ Crashes c ms task text) → s.HasEnded task := fun task hcalm =>
    hasEnded_of_crash?_eq_none hover ((run.crash?_eq_none_iff task).2 hcalm)
  refine ⟨?_, hended, fun hcalm => run.passed_puts (hended .batcher hcalm)⟩
  have hcrash := (run.crash?_iff task text).2 hcrashes
  cases hfailure : s.failure? with
  | none =>
    rw [failure?_eq, List.findSome?_eq_none_iff] at hfailure
    have hnone := hfailure task task.mem_all
    rw [hcrash] at hnone
    cases hnone
  | some e =>
    have hresult : s.drained reason = .error e := by rw [drained, hfailure]
    rw [failure?_eq] at hfailure
    obtain ⟨before, first, after, hall, hfirst, hearlier⟩ :=
      List.findSome?_eq_some_iff.1 hfailure
    obtain ⟨text', hcrashed, rfl⟩ := Option.map_eq_some_iff.1 hfirst
    refine ⟨before, first, after, text', hall, fun other hother => ?_,
      (run.crash?_iff first text').1 hcrashed, hresult, fun other otherText hother => ?_⟩
    · exact (run.crash?_eq_none_iff other).1 (Option.map_eq_none_iff.1 (hearlier other hother))
    · rw [hresult, Except.error.injEq, Task.failure_inj] at hother
      exact ⟨hother.1.symm, hother.2.symm⟩

/-- **Crashes are contained.** A pipeline of which some task has crashed returns the failure of one
that has, unless its drain takes too long; and a drain that is given its time does return. -/
theorem Run.contained (run : Run (State.start c) ms s) {task : Task} {text : String}
    (hcrashes : Crashes c ms task text) :
    (∀ m t r, s.step? m = some t → s.result? = none → t.result? = some r →
      r ≠ .error s.overdue → Contained c ms s r) ∧
    (∀ outside : Outside, outside.Answers → 1 ≤ c.capacity → ∀ reason deadline,
      s.coordinator.phase = .draining reason deadline → ∀ n t, Drain outside s n t →
        n ≤ s.effort ∧ (¬ CanAdvance outside t →
          ∃ more r, Run s more t ∧ t.result? = some r ∧ Contained c (ms ++ more) t r)) := by
  constructor
  · intro m t r hm hnone hdone hintime
    obtain ⟨reason, hover, rfl, -⟩ | ⟨_, _, -, -, -, rfl⟩ := (step_of_step? hm).stop hnone hdone
    · exact run.contained_of_allOver hover hcrashes reason
    · exact absurd rfl hintime
  · intro outside hanswers hcapacity reason deadline hphase n t drain
    have drains := run.drains_out (by simp [hphase]) hcapacity hanswers
    refine ⟨Nat.le_trans (Nat.le_add_right _ _) (drains.bounded n t drain), fun hstuck => ?_⟩
    obtain ⟨more, rest⟩ := drain.run
    have hover := (drains.leaves_none n t drain hstuck).1
    exact ⟨more, _, rest, drains.returns reason deadline hphase n t drain hstuck,
      (run.append rest).contained_of_allOver hover (hcrashes.append more) reason⟩

end

theorem State.not_canAdvance_of_effort {outside : Outside} {s : State}
    (hcancelled : s.intake.cancelled = true) (hnone : s.effort = 0) : ¬ CanAdvance outside s := by
  rintro ⟨m, hadvances, hcan⟩
  obtain ⟨t, hm⟩ := Option.isSome_iff_exists.1 hcan
  have hless := (step_of_step? hm).effort_lt hadvances hcancelled
  omega

/-- The worker of one provider crashes before the intake does. The intake's failure is returned,
and the result that another worker had put on the queue goes to the sink. -/
theorem contained_two_crashes : ∃ (outside : Outside) (ms : List State.Move) (s t : State)
    (r : Except Error Report), Run (State.start ⟨1, 2, 5000, 30, "status"⟩) ms s ∧
      Crashes ⟨1, 2, 5000, 30, "status"⟩ ms (.worker .aws) "probe" ∧
      Crashes ⟨1, 2, 5000, 30, "status"⟩ ms .intake "lookup" ∧
      s.step? (.coordinator .finish) = some t ∧ s.result? = none ∧ t.result? = some r ∧
      r ≠ .error s.overdue ∧
      r = .error (.internal "intake task panicked: task N panicked with message \"lookup\"") ∧
      s.passed.length = 1 ∧
      Contained ⟨1, 2, 5000, 30, "status"⟩ ms s r ∧
      outside.Answers ∧ Drain outside s 1 t ∧ ¬ CanAdvance outside t ∧
      ∃ more r, Run s more t ∧ t.result? = some r ∧
        Contained ⟨1, 2, 5000, 30, "status"⟩ (ms ++ more) t r := by
  let broken := ResolvedSource.make (.known .aws) "5" "key" ⟨"7", none⟩
  let healthy := ResolvedSource.make (.known .azure) "6" "key" ⟨"7", none⟩
  let ms : List State.Move :=
    [.intake (.pull sampleMessage), .intake (.lookup (.ok healthy)), .intake .enqueue,
    .worker .azure .take, .worker .azure (.probed (.ok ())), .worker .azure .offer,
    .intake (.pull sampleMessage), .intake (.lookup (.ok broken)), .intake .enqueue,
    .worker .aws .take, .worker .aws (.crash "probe"), .intake (.pull sampleMessage),
    .intake (.crash "lookup"), .worker .azure .finish, .worker .gcp .finish,
    .batcher (.receive default), .batcher .drain, .batcher (.sent (.ok ())),
    .coordinator .seeExit]
  have hrun : ∃ s, Run (State.start ⟨1, 2, 5000, 30, "status"⟩) ms s ∧ s.passed.length = 1 ∧
      (∃ reason deadline, s.coordinator.phase = .draining reason deadline) ∧
      ∃ t, s.step? (.coordinator .finish) = some t ∧ t.effort = 0 ∧
        t.intake.cancelled = true ∧
        t.result? = some (.error (Task.failure .intake "lookup")) :=
    ⟨_, .cons (step?_pull rfl decode_sampleMessage) (.cons rfl (.cons rfl (.cons rfl (.cons rfl
      (.cons rfl (.cons (step?_pull rfl decode_sampleMessage) (.cons rfl (.cons rfl (.cons rfl
      (.cons rfl (.cons (step?_pull rfl decode_sampleMessage) (.cons rfl (.cons rfl (.cons rfl
      (.cons rfl (.cons rfl (.cons rfl (.cons rfl (.nil _))))))))))))))))))), rfl, ⟨_, _, rfl⟩,
      _, rfl, rfl, rfl, rfl⟩
  obtain ⟨s, run, hpassed, ⟨reason, deadline, hphase⟩, t, hfinish, heffort, hcancelled, hresult⟩ :=
    hrun
  have hnone : s.result? = none := by simp [result?, hphase]
  have hintake : Crashes ⟨1, 2, 5000, 30, "status"⟩ ms .intake "lookup" :=
    .inl (by simp [ms, Task.crashing])
  have hintime : (.error (Task.failure .intake "lookup") : Except Error Report) ≠
      .error s.overdue := by simp [Task.failure, overdue]
  have hmessage : Task.message .intake "lookup" =
      "intake task panicked: task N panicked with message \"lookup\"" := by decide +kernel
  have hfailure : (.error (Task.failure .intake "lookup") : Except Error Report) =
      .error (.internal "intake task panicked: task N panicked with message \"lookup\"") := by
    rw [Task.failure, hmessage]
  let outside : Outside :=
    ⟨fun _ _ o => o = .crash "lookup", fun _ _ o => o = .crash "probe",
      fun _ o => o = .result (.ok ())⟩
  have hanswers : outside.Answers := ⟨fun _ _ => ⟨_, rfl⟩, fun _ _ => ⟨_, rfl⟩, fun _ => ⟨_, rfl⟩⟩
  have drain : Drain outside s 1 t := .advance hfinish trivial (.nil t)
  have hstuck : ¬ CanAdvance outside t := not_canAdvance_of_effort hcancelled heffort
  obtain ⟨returned, returns⟩ := run.contained hintake
  exact ⟨outside, ms, s, t, _, run, .inl (by simp [ms, Task.crashing]), hintake, hfinish, hnone,
    hresult, hintime, hfailure, hpassed, returned _ _ _ hfinish hnone hresult hintime, hanswers,
    drain, hstuck, (returns outside hanswers (by decide) _ _ hphase _ _ drain).2 hstuck⟩

end Availability.Flow
