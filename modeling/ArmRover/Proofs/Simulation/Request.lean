import ArmRover.Proofs.Action
import ArmRover.Simulation.Basic

/-!
# Sequences of requests

Whatever can be asked of a simulation, one request after the other. A request that fails leaves the
simulation as it is by then, and the next one goes on from there.

* `Request` — the requests, `Reply` — the answers.
* `Simulation.ask`, `Simulation.after`, `Simulation.trace` — one request, many, and what each of
  them gives, `Simulation.Reachable` — where they lead.
* `Simulation.ask_start`, `Simulation.ask_switchTo` and others — what a program that runs does not
  allow.
* `Simulation.Uncancelled` — what single frames and the other steps of requests keep, except for a
  cancellation, `Simulation.Uncancelled.ask` — every other request keeps.
* `Simulation.Invariant` — what a cancellation keeps as well, `Simulation.Invariant.after` — any
  sequence of requests keeps.
-/

namespace ArmRover

/-- What can be asked of a simulation. The numbers of frames are those that are granted at most. -/
inductive Request (α : Type) where
  | start (commands : List (Command α))
  | startText (text : String)
  | frame (dt : α)
  | elapse (seconds dt : α) (frames : Nat)
  | runToEnd (dt : α) (limit : Value α) (frames : Nat)
  | switchTo (name : String)
  | cancel
  | reset

/-- Whether the request is for another robot. -/
def Request.switches : Request α → Bool
  | switchTo _ => true
  | _ => false

theorem Request.exists_switchTo {r : Request α} (h : r.switches = true) :
    ∃ name, r = .switchTo name := by
  cases r with
  | switchTo name => exact ⟨name, rfl⟩
  | _ => cases h

/-- How long the frames of a request are, if time passes in it. -/
def Request.frameTime? : Request α → Option α
  | frame dt | elapse _ dt _ | runToEnd dt _ _ => some dt
  | start _ | startText _ | switchTo _ | cancel | reset => none

/-- What a request that does not fail answers. -/
inductive Reply (α : Type) where
  | done
  | commands (commands : List (Command α))
  | readings (readings : List (Value α))

namespace Simulation

variable {α : Type} [Scalar α]

/-- Carry a request out. -/
def carryOut (cfg : Settings α) : Request α → Action α (Simulation α) (Reply α)
  | .start commands => do start commands; return .done
  | .startText text => do return .commands (← startText text)
  | .frame dt => do frame cfg dt; return .done
  | .elapse seconds dt frames => do elapse cfg seconds dt frames; return .done
  | .runToEnd dt limit frames => do return .readings (← runToEnd cfg dt limit frames)
  | .switchTo name => do switchTo name; return .done
  | .cancel => do cancel; return .done
  | .reset => do reset cfg; return .done

/-- The answer to a request, or its fault, and the simulation afterwards. -/
def ask (cfg : Settings α) (s : Simulation α) (r : Request α) :
    Except (Fault α) (Reply α) × Simulation α :=
  match carryOut cfg r s with
  | .ok reply s => (.ok reply, s)
  | .error fault s => (.error fault, s)

theorem ask_of_carryOut {cfg : Settings α} {s t : Simulation α} {r : Request α} {reply : Reply α}
    (h : carryOut cfg r s = .ok reply t) : s.ask cfg r = (.ok reply, t) := by
  unfold ask
  rw [h]

theorem ask_of_carryOut_error {cfg : Settings α} {s t : Simulation α} {r : Request α}
    {fault : Fault α} (h : carryOut cfg r s = .error fault t) : s.ask cfg r = (.error fault, t) := by
  unfold ask
  rw [h]

/-- The simulation after requests. -/
def after (cfg : Settings α) (s : Simulation α) : List (Request α) → Simulation α
  | [] => s
  | r :: rest => after cfg (s.ask cfg r).2 rest

/-- The simulations that requests lead to from a new one. -/
def Reachable (cfg : Settings α) (world : World α) (s : Simulation α) : Prop :=
  ∃ requests, s = (new cfg world).after cfg requests

/-- What each of the requests gives. -/
def trace (cfg : Settings α) (s : Simulation α) :
    List (Request α) → List (Except (Fault α) (Reply α) × Simulation α)
  | [] => []
  | r :: rest => s.ask cfg r :: trace cfg (s.ask cfg r).2 rest

/-! ### Requests that depend on whether a program runs -/

variable (cfg : Settings α) {s : Simulation α}

theorem ask_start (h : s.running = false) (commands : List (Command α)) :
    s.ask cfg (.start commands) = (.ok .done, { s with job := some (.fresh commands) }) := by
  unfold ask carryOut start
  simp only [bind_assoc]
  rw [Action.run_get_bind, h]
  rfl

/-- While a program runs another one is not looked at. -/
theorem ask_start_of_running (h : s.running = true) (commands : List (Command α)) :
    s.ask cfg (.start commands) = (.error .alreadyRunning, s) := by
  unfold ask carryOut start
  simp only [bind_assoc]
  rw [Action.run_get_bind, h]
  rfl

theorem ask_switchTo (h : s.running = false) (robot : Robot) :
    s.ask cfg (.switchTo robot.name) =
      (.ok .done, { s with
        scene := { s.scene with station := { s.scene.station with active := robot } } }) := by
  unfold ask carryOut switchTo
  simp only [bind_assoc]
  rw [Action.run_get_bind, h]
  cases robot <;> rfl

/-- While a program runs the robot is locked. -/
theorem ask_switchTo_of_running (h : s.running = true) (name : String) :
    s.ask cfg (.switchTo name) = (.error .robotLocked, s) := by
  unfold ask carryOut switchTo
  simp only [bind_assoc]
  rw [Action.run_get_bind, h]
  rfl

/-- A request for another robot changes at most which robot is active. -/
theorem exists_ask_switchTo (s : Simulation α) (name : String) :
    ∃ active, (s.ask cfg (.switchTo name)).2 =
      { s with scene := { s.scene with station := { s.scene.station with active } } } := by
  cases hrunning : s.running with
  | true =>
    rw [ask_switchTo_of_running cfg hrunning]
    exact ⟨s.scene.station.active, rfl⟩
  | false =>
    unfold ask carryOut switchTo
    simp only [bind_assoc]
    rw [Action.run_get_bind, hrunning]
    cases Robot.named? name with
    | none => exact ⟨s.scene.station.active, rfl⟩
    | some robot => exact ⟨robot, rfl⟩

/-! ### Invariants -/

open ArmRover.Action

/-- What the steps of requests keep, except for a cancellation, also when they fail, if the frames
are of a fit length. -/
structure Uncancelled (cfg : Settings α) (Fit : α → Prop) (P : Simulation α → Prop) : Prop where
  started {s : Simulation α} (commands : List (Command α)) : s.running = false → P s →
    P { s with job := some (.fresh commands) }
  switched {s : Simulation α} (active : Robot) : s.running = false → P s →
    P { s with scene := { s.scene with station := { s.scene.station with active } } }
  told {s : Simulation α} {fault : Fault α} : s.job = some (.failed fault) → P s →
    P { s with job := some (.failed fault.again) }
  reset : Preserves P (reset cfg)
  frame {dt : α} : Fit dt → Preserves P (frame cfg dt)

/-- What all steps of requests keep, also when they fail, if the frames are of a fit length. -/
structure Invariant (cfg : Settings α) (Fit : α → Prop) (P : Simulation α → Prop) : Prop extends
    Uncancelled cfg Fit P where
  cancel : Preserves P (cancel : Action α (Simulation α) Unit)

variable {cfg} {Fit : α → Prop} {P : Simulation α → Prop}

/-- What carrying a request out keeps holds after it, also when it fails. -/
theorem ask_preserves {r : Request α} (h : Preserves P (carryOut cfg r)) (hs : P s) :
    P (s.ask cfg r).2 := by
  have hend := h s hs
  unfold Simulation.ask
  cases hrun : carryOut cfg r s with
  | ok reply t =>
    rw [hrun] at hend
    exact hend
  | error fault t =>
    rw [hrun] at hend
    exact hend

namespace Uncancelled

theorem preserves_start (h : Uncancelled cfg Fit P) (commands : List (Command α)) :
    Preserves P (start commands) := by
  refine preserves_get_bind fun s hs => ?_
  cases hrunning : s.running with
  | true => exact hs
  | false => exact h.started commands hrunning hs

theorem preserves_switchTo (h : Uncancelled cfg Fit P) (name : String) :
    Preserves P (switchTo name) := by
  refine preserves_get_bind fun s hs => ?_
  cases hrunning : s.running with
  | true => exact hs
  | false =>
    cases Robot.named? name with
    | none => exact hs
    | some robot => exact h.switched robot hrunning hs

theorem preserves_tell (h : Uncancelled cfg Fit P)
    (verdict : Except (Fault α) (List (Value α))) : Preserves P (tell verdict) := by
  have hlift : Preserves P (lift verdict : Action α (Simulation α) (List (Value α))) :=
    preserves_lift verdict
  refine preserves_get_bind fun s hs => ?_
  cases hjob : s.job with
  | none => exact hlift s hs
  | some job =>
    cases job with
    | failed fault => exact hlift _ (h.told hjob hs)
    | fresh commands => exact hlift s hs
    | waiting ticket rest => exact hlift s hs
    | cancelling => exact hlift s hs
    | cancelled => exact hlift s hs
    | finished readings => exact hlift s hs

theorem preserves_runFrames (h : Uncancelled cfg Fit P) {dt : α} (hdt : Fit dt) (limit : Value α)
    (since : α) (frames : Nat) : Preserves P (runFrames cfg dt limit since frames) := by
  induction frames with
  | zero =>
    unfold runFrames
    refine preserves_bind preserves_get fun s => ?_
    cases s.verdict? limit since with
    | some verdict => exact h.preserves_tell verdict
    | none => exact preserves_throw _
  | succ frames ih =>
    unfold runFrames
    refine preserves_bind preserves_get fun s => ?_
    cases s.verdict? limit since with
    | some verdict => exact h.preserves_tell verdict
    | none => exact preserves_bind (h.frame hdt) fun _ => ih

theorem preserves_runTo (h : Uncancelled cfg Fit P) {dt : α} (hdt : Fit dt) (finish : α)
    (frames : Nat) : Preserves P (runTo cfg dt finish frames) := by
  induction frames with
  | zero =>
    unfold runTo
    refine preserves_bind preserves_get fun s => ?_
    exact preserves_ite (preserves_throw _) (preserves_pure _)
  | succ frames ih =>
    unfold runTo
    refine preserves_bind preserves_get fun s => ?_
    exact preserves_ite (preserves_bind (h.frame hdt) fun _ => ih) (preserves_pure _)

theorem preserves_carryOut (h : Uncancelled cfg Fit P) {r : Request α} (hcancel : r ≠ .cancel)
    (hr : ∀ dt ∈ r.frameTime?, Fit dt) : Preserves P (carryOut cfg r) := by
  have hdone : ∀ act : Action α (Simulation α) Unit, Preserves P act →
      Preserves P (do act; return .done : Action α (Simulation α) (Reply α)) :=
    fun act hact => preserves_bind hact fun _ => preserves_pure _
  cases r with
  | start commands => exact hdone _ (h.preserves_start commands)
  | startText text =>
    refine preserves_bind (preserves_bind (preserves_lift _) fun commands => ?_)
      fun _ => preserves_pure _
    refine preserves_ite (preserves_pure _) ?_
    exact preserves_bind (h.preserves_start commands) fun _ => preserves_pure _
  | frame dt => exact hdone _ (h.frame (hr dt rfl))
  | elapse seconds dt frames =>
    refine hdone _ (preserves_bind preserves_get fun s => ?_)
    exact h.preserves_runTo (hr dt rfl) _ frames
  | runToEnd dt limit frames =>
    refine preserves_bind (preserves_bind preserves_get fun s => ?_) fun _ => preserves_pure _
    exact h.preserves_runFrames (hr dt rfl) limit _ frames
  | switchTo name => exact hdone _ (h.preserves_switchTo name)
  | cancel => exact absurd rfl hcancel
  | reset => exact hdone _ h.reset

theorem ask (h : Uncancelled cfg Fit P) {r : Request α} (hcancel : r ≠ .cancel)
    (hr : ∀ dt ∈ r.frameTime?, Fit dt) (hs : P s) : P (s.ask cfg r).2 :=
  ask_preserves (h.preserves_carryOut hcancel hr) hs

end Uncancelled

namespace Invariant

theorem ask (h : Invariant cfg Fit P) {r : Request α} (hr : ∀ dt ∈ r.frameTime?, Fit dt)
    (hs : P s) : P (s.ask cfg r).2 := by
  cases r with
  | cancel => exact ask_preserves (preserves_bind h.cancel fun _ => preserves_pure _) hs
  | _ => exact h.toUncancelled.ask nofun hr hs

theorem after (h : Invariant cfg Fit P) {requests : List (Request α)}
    (hrequests : ∀ r ∈ requests, ∀ dt ∈ r.frameTime?, Fit dt) (hs : P s) :
    P (s.after cfg requests) := by
  induction requests generalizing s with
  | nil => exact hs
  | cons r rest ih =>
    obtain ⟨hr, hrest⟩ := List.forall_mem_cons.mp hrequests
    exact ih hrest (h.ask hr hs)

end Invariant

end Simulation

end ArmRover
