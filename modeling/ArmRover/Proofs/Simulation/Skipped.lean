import ArmRover.Proofs.Simulation.Bystander

/-!
# Commands for the other robot

A program is as good as the commands in it for the active robot. The others are passed over before
the first step is taken, so that they cost neither a frame nor a wait nor a reading, and no fault
comes of them, whatever they are.

* `Simulation.Twins` — simulations that only differ in what a program that has not begun would pass
  over, `Simulation.Twins.ask`, `Simulation.Twins.trace` — they stay so.
* `Simulation.LooksLike` — simulations that show the same.
* `Simulation.other_commands_skipped` — a program and its commands for the active robot.
-/

namespace ArmRover.Simulation

variable {α : Type} [Scalar α]

/-- The simulations show the same: the whole scene, the world, whether a program runs, and how a run
ends. -/
structure LooksLike (s t : Simulation α) : Prop where
  scene : s.scene = t.scene
  world : s.world = t.world
  running : s.running = t.running
  verdict (limit : Value α) (since : α) : s.verdict? limit since = t.verdict? limit since

theorem LooksLike.refl (s : Simulation α) : s.LooksLike s := ⟨rfl, rfl, rfl, fun _ _ => rfl⟩

/-- The simulations are at the same moment, and only what a program that has not begun would pass
over may be different. -/
def Twins (s t : Simulation α) : Prop :=
  ∃ active kept, Simulation.Echoes (.ofTickets 0) active (kept, kept) s t

namespace Twins

variable {s t : Simulation α}

theorem of_dedicated (h : s.Dedicated) : s.Twins s := ⟨_, _, h.echoes⟩

theorem running (h : s.Twins t) : s.running = t.running := by
  obtain ⟨active, kept, h⟩ := h
  exact h.running

theorem scene_eq (h : s.Twins t) : s.scene = t.scene := by
  obtain ⟨active, kept, h⟩ := h
  have hstation : s.scene.station = t.scene.station := h.scene.station.eq_of_ofTickets
  have hclock : s.scene.clock = t.scene.clock :=
    h.scene.clock.trans (Clock.shift_ofTickets_zero _)
  obtain ⟨⟨station, clock⟩, world, job⟩ := s
  obtain rfl : station = t.scene.station := hstation
  obtain rfl : clock = t.scene.clock := hclock
  rfl

/-- Only a program that has not begun can make a difference. -/
theorem eq_of_not_running (h : s.Twins t) (hrunning : t.running = false) : s = t := by
  have hscene := h.scene_eq
  obtain ⟨active, kept, -, hworld, hjob⟩ := h
  have hsame : s.job = t.job := by
    unfold Simulation.running at hrunning
    generalize s.job = j at hjob ⊢
    generalize t.job = k at hjob hrunning ⊢
    cases hjob with
    | none => rfl
    | some hjob =>
      cases hjob with
      | fresh _ => cases hrunning
      | waiting _ _ => cases hrunning
      | _ => rfl
  obtain ⟨scene, world, job⟩ := s
  obtain rfl : scene = t.scene := hscene
  obtain rfl : world = t.world := hworld
  obtain rfl : job = t.job := hsame
  rfl

theorem looksLike (h : s.Twins t) : s.LooksLike t where
  scene := h.scene_eq
  world := by
    obtain ⟨active, kept, h⟩ := h
    exact h.world
  running := h.running
  verdict limit since := by
    obtain ⟨active, kept, h⟩ := h
    exact h.verdict? limit since

/-! ### Requests -/

theorem ask (cfg : Settings α) (h : s.Twins t) (r : Request α) :
    (s.ask cfg r).1 = (t.ask cfg r).1 ∧ (s.ask cfg r).2.Twins (t.ask cfg r).2 := by
  cases hr : r.switches with
  | false =>
    obtain ⟨active, kept, h⟩ := h
    obtain ⟨hreply, hnext⟩ := h.ask cfg hr
    exact ⟨hreply, active, kept, hnext⟩
  | true =>
    obtain ⟨name, rfl⟩ := Request.exists_switchTo hr
    cases hrunning : t.running with
    | true =>
      rw [ask_switchTo_of_running cfg hrunning,
        ask_switchTo_of_running cfg (h.running.trans hrunning)]
      exact ⟨rfl, h⟩
    | false =>
      obtain rfl := h.eq_of_not_running hrunning
      exact ⟨rfl, .of_dedicated ((dedicated_of_not_running hrunning).ask cfg _)⟩

theorem trace (cfg : Settings α) (h : s.Twins t) (requests : List (Request α)) :
    List.Forall₂ (fun x y => x.1 = y.1 ∧ x.2.Twins y.2)
      (s.trace cfg requests) (t.trace cfg requests) := by
  induction requests generalizing s t with
  | nil => exact .nil
  | cons r rest ih =>
    have hr := h.ask cfg r
    exact .cons hr (ih hr.2)

end Twins

/-! ### Programs -/

/-- Programs that agree on the commands for the active robot make no difference. -/
theorem trace_start_looksLike (cfg : Settings α) (s : Simulation α)
    {commands commands' : List (Command α)}
    (hsame : commands.filter (fun c => c.robot == s.scene.station.active) =
      commands'.filter (fun c => c.robot == s.scene.station.active))
    (requests : List (Request α)) :
    List.Forall₂ (fun x y => x.1 = y.1 ∧ x.2.LooksLike y.2)
      (s.trace cfg (.start commands :: requests)) (s.trace cfg (.start commands' :: requests)) := by
  cases hrunning : s.running with
  | true =>
    unfold trace
    rw [ask_start_of_running cfg hrunning, ask_start_of_running cfg hrunning]
    exact List.forall₂_same.mpr fun x _ => ⟨rfl, .refl x.2⟩
  | false =>
    obtain ⟨hreply, hnext⟩ := (dedicated_of_not_running hrunning).echoes.ask_of_related
      (echo_carryOut_start cfg hsame)
    have htwins : (s.ask cfg (.start commands)).2.Twins (s.ask cfg (.start commands')).2 :=
      ⟨_, _, hnext⟩
    refine .cons ⟨hreply, htwins.looksLike⟩ ?_
    exact (htwins.trace cfg requests).imp fun _ _ h => ⟨h.1, h.2.looksLike⟩

/-- In whatever state a simulation is, starting a program and starting only its commands for the
active robot look the same, at once and after each request that is made of both, and have the same
answers. So does leaving out a single command for the other robot, also one that no rule carries
out. -/
theorem other_commands_skipped (cfg : Settings α) (s : Simulation α) (requests : List (Request α)) :
    let active := s.scene.station.active
    let run (commands : List (Command α)) := s.trace cfg (.start commands :: requests)
    (∀ commands, List.Forall₂ (fun x y => x.1 = y.1 ∧ x.2.LooksLike y.2)
      (run commands) (run (commands.filter fun c => c.robot == active))) ∧
    ∀ (before after : List (Command α)) (robot : Robot) (kind : String), robot ≠ active →
      List.Forall₂ (fun x y => x.1 = y.1 ∧ x.2.LooksLike y.2)
        (run (before ++ .other robot kind :: after)) (run (before ++ after)) := by
  refine ⟨fun commands => ?_, fun before after robot kind hother => ?_⟩
  · refine trace_start_looksLike cfg s ?_ requests
    rw [List.filter_filter]
    simp only [Bool.and_self]
  · refine trace_start_looksLike cfg s ?_ requests
    have hskipped : (Command.other robot kind :: after).filter
        (fun c => c.robot == s.scene.station.active) =
          after.filter (fun c => c.robot == s.scene.station.active) :=
      List.filter_cons_of_neg fun h => hother (eq_of_beq h)
    rw [List.filter_append, List.filter_append, hskipped]

/-- A command for the rover that no rule carries out, in the middle of a program for the arm that
ends with one that fails. -/
theorem other_commands_skipped_unknown :
    let s : Simulation ℝ := new .standard []
    let frame : Request ℝ := .frame Settings.standard.run.frameTime
    let requests := [frame, .runToEnd Settings.standard.run.frameTime .null 100]
    Robot.rover ≠ s.scene.station.active ∧
      List.Forall₂ (fun x y => x.1 = y.1 ∧ x.2.LooksLike y.2)
        (s.trace .standard (.start ([.openGripper] ++ .other .rover "Fly" :: [.moveJoint 9 0]) ::
          requests))
        (s.trace .standard (.start ([.openGripper] ++ [.moveJoint 9 0]) :: requests)) := by
  intro s frame requests
  have hother : Robot.rover ≠ s.scene.station.active := nofun
  exact ⟨hother, (other_commands_skipped .standard s requests).2 [.openGripper] [.moveJoint 9 0]
    .rover "Fly" hother⟩

end ArmRover.Simulation
