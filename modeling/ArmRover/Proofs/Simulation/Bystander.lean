import ArmRover.Proofs.Settings.Standard
import ArmRover.Proofs.Simulation.Echo
import ArmRover.Proofs.Simulation.Orderly

/-!
# The robot that is not active

Every frame moves both robots and refreshes the sensors, and a program may have commands for both of
them. Still nothing of the robot that is not active changes: a simulation whose program is for the
active robot is an echo of itself, and echoes keep the other one.

* `Simulation.Dedicated` — simulations whose program, once it runs, is for the active robot,
  `Simulation.Dedicated.after` — requests lead from such a simulation to such a one.
* `Simulation.Dedicated.echoes` — they echo themselves.
* `Simulation.Dedicated.untouched_ask`, `Simulation.Dedicated.untouched_of_mem_trace` — one request,
  and many.
* `Simulation.bystander_untouched` — requests of every kind, with any commands.
-/

namespace ArmRover.Simulation

variable {α : Type} [Scalar α]

/-- What is left of the program that is under way is for the active robot. -/
def Dedicated (s : Simulation α) : Prop :=
  ∀ ticket rest, s.job = some (.waiting ticket rest) → rest.For s.scene.station.active

omit [Scalar α] in
/-- Before it runs, a program may have any commands. -/
theorem dedicated_of_not_running {s : Simulation α} (h : s.running = false) : s.Dedicated :=
  fun ticket rest hjob => absurd hjob (not_waiting_of_not_running h ticket rest)

omit [Scalar α] in
theorem dedicated_of_fresh {s : Simulation α} {commands : List (Command α)}
    (h : s.job = some (.fresh commands)) : s.Dedicated := by
  intro ticket rest hjob
  rw [h] at hjob
  cases hjob

/-! ### Echoes of oneself -/

namespace Dedicated

variable {s : Simulation α}

theorem echoes (h : s.Dedicated) :
    Simulation.Echoes (.ofTickets 0) s.scene.station.active (s.scene.station, s.scene.station)
      s s where
  scene :=
    { station :=
        { active_left := rfl
          active_right := rfl
          gates := (Gates.shift_ofTickets 0 _).symm
          arm := fun _ => ⟨rfl, rfl⟩
          rover := fun _ => ⟨(Rover.shift_ofTickets 0 _).symm, rfl⟩
          untouched_left := .refl _ _
          untouched_right := .refl _ _ }
      clock := (Clock.shift_ofTickets_zero _).symm }
  world := rfl
  job := by
    cases hjob : s.job with
    | none => exact .none
    | some job =>
      refine .some ?_
      cases job with
      | fresh commands => exact .fresh rfl
      | waiting ticket rest =>
        have hwaiting := Job.Echoes.waiting (d := .ofTickets 0) ticket (h ticket rest hjob)
        rw [Execution.shift_ofTickets] at hwaiting
        exact hwaiting
      | cancelling => exact .cancelling
      | cancelled => exact .cancelled
      | failed fault => exact .failed fault
      | finished readings => exact .finished readings

end Dedicated

theorem Echoes.dedicated {d : Offset α} {active : Robot} {kept : Station α × Station α}
    {s t : Simulation α}
    (h : Simulation.Echoes d active kept s t) : t.Dedicated := by
  intro ticket rest ht
  have hjob := h.job
  rw [ht] at hjob
  rw [h.scene.station.active_right]
  exact (Job.Echoes.eq_waiting hjob).2

/-! ### Requests -/

namespace Dedicated

variable {s : Simulation α}

theorem ask (cfg : Settings α) (h : s.Dedicated) (r : Request α) : (s.ask cfg r).2.Dedicated := by
  cases hr : r.switches with
  | false => exact (h.echoes.ask cfg hr).2.dedicated
  | true =>
    obtain ⟨name, rfl⟩ := Request.exists_switchTo hr
    cases hrunning : s.running with
    | true =>
      rw [ask_switchTo_of_running cfg hrunning]
      exact h
    | false =>
      obtain ⟨active, hask⟩ := exists_ask_switchTo cfg s name
      rw [hask]
      exact dedicated_of_not_running hrunning

theorem after (cfg : Settings α) (h : s.Dedicated) (requests : List (Request α)) :
    (s.after cfg requests).Dedicated := by
  induction requests generalizing s with
  | nil => exact h
  | cons r rest ih => exact ih (h.ask cfg r)

/-- Whatever is asked, the robot that is not active is left alone. -/
theorem untouched_ask (cfg : Settings α) (h : s.Dedicated) (r : Request α) :
    Station.Untouched s.scene.station.active s.scene.station (s.ask cfg r).2.scene.station := by
  cases hr : r.switches with
  | false => exact (h.echoes.ask cfg hr).2.scene.station.untouched_left
  | true =>
    obtain ⟨name, rfl⟩ := Request.exists_switchTo hr
    obtain ⟨active, hask⟩ := exists_ask_switchTo cfg s name
    rw [hask]
    exact Station.Untouched.refl _ s.scene.station

/-- Time passes for the active robot only. -/
theorem untouched_of_pass {cfg : Settings α} {dt : α} {t : Simulation α} (h : s.Dedicated)
    (hpass : pass cfg dt s = .ok () t) :
    Station.Untouched s.scene.station.active s.scene.station t.scene.station := by
  have hend := echo_pass cfg dt s s h.echoes
  rw [hpass] at hend
  cases hend with
  | ok _ hst => exact hst.scene.station.untouched_left

/-- The robot that is not active is left alone by one request after the other, until the other one
is no longer active. -/
theorem untouched_of_mem_trace (cfg : Settings α) (h : s.Dedicated) {requests : List (Request α)}
    (hactive : ∀ x ∈ s.trace cfg requests,
      x.2.scene.station.active = s.scene.station.active) :
    ∀ x ∈ s.trace cfg requests,
      Station.Untouched s.scene.station.active s.scene.station x.2.scene.station := by
  induction requests generalizing s with
  | nil => exact List.forall_mem_nil _
  | cons r rest ih =>
    obtain ⟨hnext, hrest⟩ := List.forall_mem_cons.mp hactive
    have hfirst := h.untouched_ask cfg r
    refine List.forall_mem_cons.mpr ⟨hfirst, fun x hx => ?_⟩
    have hx' := ih (h.ask cfg r) (fun y hy => (hrest y hy).trans hnext.symm) x hx
    rw [hnext] at hx'
    exact hfirst.trans hx'

/-- Only a request for another robot can make another one active. -/
theorem active_of_mem_trace (cfg : Settings α) (h : s.Dedicated) {requests : List (Request α)}
    (hrequests : ∀ r ∈ requests, r.switches = false) :
    ∀ x ∈ s.trace cfg requests, x.2.scene.station.active = s.scene.station.active := by
  have htrace := h.echoes.trace cfg hrequests
  rw [List.forall₂_same] at htrace
  exact fun x hx => (htrace x hx).2.scene.station.active_left

end Dedicated

/-- Whatever is asked of a simulation that started without a program, and whatever commands its
programs have: as long as the arm stays active, the rover and the map stay exactly as they were, and
as long as the rover stays active, the arm and the gripper do. -/
theorem bystander_untouched (cfg : Settings α) {start : Simulation α}
    (hstart : start.running = false) (before requests : List (Request α)) :
    let s := start.after cfg before
    (∀ x ∈ s.trace cfg requests, x.2.scene.station.active = s.scene.station.active) →
      ∀ x ∈ s.trace cfg requests,
        (s.scene.station.active = .arm →
          x.2.scene.station.rover = s.scene.station.rover ∧
            x.2.scene.station.map = s.scene.station.map) ∧
        (s.scene.station.active = .rover →
          x.2.scene.station.arm = s.scene.station.arm ∧
            x.2.scene.station.gripper = s.scene.station.gripper) := by
  intro s hactive x hx
  have hs : s.Dedicated := (dedicated_of_not_running hstart).after cfg before
  have huntouched := hs.untouched_of_mem_trace cfg hactive x hx
  refine ⟨fun ha => ?_, fun hr => ?_⟩
  · rw [ha] at huntouched
    exact huntouched
  · rw [hr] at huntouched
    exact huntouched

/-- In the middle of a program with commands for both robots, until another one is started. -/
theorem bystander_untouched_midway :
    let frame : Request ℝ := .frame Settings.standard.run.frameTime
    let commands : List (Command ℝ) := [.openGripper, .move 1 1, .getDistance]
    let built : Simulation ℝ := new .standard []
    let s := built.after .standard [.start commands, frame]
    let later := [frame, .cancel, frame, .start commands, frame]
    built.running = false ∧
      (∀ x ∈ s.trace .standard later, x.2.scene.station.active = s.scene.station.active) ∧
      ∀ x ∈ s.trace .standard later,
        (s.scene.station.active = .arm →
          x.2.scene.station.rover = s.scene.station.rover ∧
            x.2.scene.station.map = s.scene.station.map) ∧
        (s.scene.station.active = .rover →
          x.2.scene.station.arm = s.scene.station.arm ∧
            x.2.scene.station.gripper = s.scene.station.gripper) := by
  intro frame commands built s later
  have hbuilt : built.running = false := rfl
  have hlater : ∀ r ∈ later, r.switches = false := by
    simp [later, frame, Request.switches]
  have hs : s.Dedicated := (dedicated_of_not_running hbuilt).after .standard _
  have hactive := hs.active_of_mem_trace .standard hlater
  exact ⟨hbuilt, hactive,
    bystander_untouched .standard hbuilt [.start commands, frame] later hactive⟩

end ArmRover.Simulation
