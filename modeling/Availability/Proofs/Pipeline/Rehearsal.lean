import Availability.Proofs.Pipeline.Steps
import Availability.Rehearsal.Service

/-!
# Rehearsals are runs

A rehearsal picks among the moves of a pipeline and makes no other: what it has come to is what its
moves lead to, however long it rests and passes time. So what holds of every run holds of what the
service performs.

* `Scene.Keeps.rest`, `Scene.Keeps.pass`: what every act and the clock keep.
* `Service.play_run`: the service plays a run of its pipeline.
-/

namespace Availability.Rehearsal

open Availability.Flow

/-! ## What a scene keeps -/

/-- What all parts of a scene keep as they act, and its clock as it goes on. -/
structure Scene.Keeps {σ : Type} (scene : Scene σ) (P : σ → Prop) : Prop where
  act : ∀ {s t : σ}, scene.act? s = some t → P s → P t
  setNow : ∀ (n : Nat) {s : σ}, P s → P (scene.setNow n s)

namespace Scene.Keeps

variable {σ : Type} {scene : Scene σ} {P : σ → Prop}

theorem actFor (h : scene.Keeps P) (n : Nat) {s : σ} (hs : P s) : P (scene.actFor n s) := by
  induction n generalizing s with
  | zero => exact hs
  | succ n ih =>
    unfold Scene.actFor
    split
    · next t ht => exact ih (h.act ht hs)
    · exact hs

theorem rest (h : scene.Keeps P) {s : σ} (hs : P s) : P (scene.rest s) := h.actFor _ hs

theorem passFor (h : scene.Keeps P) (stop : σ → Bool) (limit n : Nat) {s : σ} (hs : P s) :
    P (scene.passFor stop limit n s) := by
  induction n generalizing s with
  | zero => exact hs
  | succ n ih =>
    unfold Scene.passFor
    split
    · exact hs
    split
    · split
      · exact ih (h.rest (h.setNow _ hs))
      · exact h.setNow _ hs
    · exact h.setNow _ hs

theorem pass (h : scene.Keeps P) (stop : σ → Bool) (ms : Nat) {s : σ} (hs : P s) :
    P (scene.pass stop ms s) := h.passFor stop _ _ hs

end Scene.Keeps

/-! ## A pipeline in rehearsal -/

namespace PipelinePlay

variable {c : Settings} {p q : PipelinePlay} {m : State.Move}

/-- Whether a rehearsal is where its moves lead. -/
def Ran (c : Settings) (p : PipelinePlay) : Prop :=
  Run (State.start c) p.moves.reverse p.state

theorem moves_arm (p : PipelinePlay) (m : State.Move) : (p.arm m).moves = p.moves := by
  have lookup : p.armLookup.moves = p.moves := by
    unfold armLookup
    split <;> rfl
  have worker : ∀ of, (p.armWorker of).moves = p.moves := by
    intro of
    unfold armWorker
    split
    · split <;> rfl
    · rfl
    · rfl
  have sink : ∀ q : PipelinePlay, q.armSink.moves = q.moves := by
    intro q
    unfold armSink
    split <;> rfl
  unfold arm
  split
  · exact lookup
  · exact worker _
  · exact sink _
  · exact sink _
  · rfl

theorem Ran.move (ran : p.Ran c) (h : p.move? m = some q) : q.Ran c := by
  have hstep := move?_run h
  unfold move? at h
  obtain ⟨s, -, rfl⟩ := Option.map_eq_some_iff.1 h
  unfold Ran
  rw [moves_arm, List.reverse_cons]
  exact Run.snoc ran hstep

theorem Ran.firstMove {ms : List State.Move} (ran : p.Ran c) (h : p.firstMove? ms = some q) :
    q.Ran c := by
  obtain ⟨m, -, hm⟩ := List.exists_of_findSome?_eq_some h
  exact ran.move hm

theorem Ran.turnToStream (ran : p.Ran c) (h : p.turnToStream? = some q) : q.Ran c := by
  unfold turnToStream? at h
  split at h
  · obtain ⟨r, hr, rfl⟩ := Option.map_eq_some_iff.1 h
    have hmoved : r.Ran c := ran.move hr
    exact hmoved
  · obtain ⟨r, hr, rfl⟩ := Option.map_eq_some_iff.1 h
    have hmoved : r.Ran c := ran.move hr
    exact hmoved
  · split at h
    · exact ran.move h
    · cases h

theorem keeps_ran (c : Settings) : scene.Keeps (Ran c) where
  act := by
    intro p q h ran
    change p.act? = some q at h
    simp only [act?, Option.orElse_eq_orElse, Option.orElse_eq_or, Option.or_eq_some_iff] at h
    rcases h with h | ⟨-, h | ⟨-, h | ⟨-, h | ⟨-, h | ⟨-, h | ⟨-, h⟩⟩⟩⟩⟩⟩
    · exact ran.firstMove h
    · exact ran.firstMove h
    · exact ran.firstMove h
    · exact ran.firstMove h
    · exact ran.firstMove h
    · exact ran.turnToStream h
    · exact ran.firstMove h
  setNow := by
    intro n p ran
    change ((p.move? (.elapse (n - p.now))).getD p).Ran c
    cases h : p.move? (.elapse (n - p.now)) with
    | none => exact ran
    | some q => exact ran.move h

theorem Ran.signal (ran : p.Ran c) : p.signal.Ran c := by
  unfold PipelinePlay.signal
  cases h : p.move? .signal with
  | none => exact ran
  | some q => exact ran.move h

theorem Ran.send (ran : p.Ran c) (ms : List InboundMessage) : (p.send ms).2.Ran c := by
  unfold PipelinePlay.send
  split <;> exact ran

theorem Ran.failStream (ran : p.Ran c) : p.failStream.Ran c := by
  unfold PipelinePlay.failStream
  split <;> exact ran

theorem Ran.finish (ran : p.Ran c) (patience : Nat) : (p.finish patience).Ran c := by
  have hclosed : p.endStream.Ran c := ran
  exact (keeps_ran c).pass isDone patience ((keeps_ran c).rest hclosed)

end PipelinePlay

namespace Service

open Availability.Service
open Settings (Config)

/-- **The service plays a run of its pipeline.** -/
theorem play_run (c : Config) (w : World) (f : Inflow) : (play c w f).Ran (pipeline c) := by
  have hstart : (PipelinePlay.start (pipeline c) (cast c w)).Ran (pipeline c) := .nil _
  have hsent := hstart.send f.messages
  unfold play
  generalize ((PipelinePlay.start (pipeline c) (cast c w)).send f.messages).2 = sent at hsent
  have hfilled : (if f.fault?.isSome then sent.failStream else sent).Ran (pipeline c) := by
    split
    · exact hsent.failStream
    · exact hsent
  revert hfilled
  simp only
  generalize (if f.fault?.isSome then sent.failStream else sent) = filled
  intro hfilled
  have hopen : (if f.staysOpen || f.fault?.isSome then filled else filled.endStream).Ran
      (pipeline c) := by
    split <;> exact hfilled
  have hresting := (PipelinePlay.keeps_ran (pipeline c)).rest hopen
  split
  · next ms _ =>
    have hwarned := (PipelinePlay.keeps_ran (pipeline c)).pass PipelinePlay.isDone ms hresting
    exact hwarned.signal.finish patience
  · exact hresting.finish patience

/-- A service that reports has played a run to its end. -/
theorem exists_run_of_reported {c : Config} {w : World} {r : Report}
    (h : (perform c w).ending = .reported r) :
    probeFault? c = none ∧ State.startFault? c.pipeline.channelBufferSize = none ∧
      ∃ ms s, Run (State.start (pipeline c)) ms s ∧ s.result? = some (.ok r) := by
  unfold perform at h
  simp only at h
  split at h
  · cases h
  · next hprobes =>
    split at h
    · cases h
    · split at h
      · cases h
      · next f _ =>
        split at h
        · cases h
        · next hqueues =>
          refine ⟨hprobes, hqueues, _, _, play_run c w f, ?_⟩
          simp only [ending] at h
          split at h
          · next hdone =>
            cases h
            exact hdone
          · cases h
          · cases h

end Service

end Availability.Rehearsal
