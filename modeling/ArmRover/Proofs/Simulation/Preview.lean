import ArmRover.Proofs.Execution.Preview
import ArmRover.Proofs.Simulation.Finish
import ArmRover.Proofs.Simulation.Limits

/-!
# No path is left behind

A command that moves the tip shows its path and takes it away at its end. Whoever ends the program
before that by a fault, a reset or a new program leaves no path behind: only a cancellation does,
which ends the command where it waits.

* `Simulation.outline_pass` — the first half of a frame changes nothing that is seen of the arm.
* `Simulation.Tidy` — simulations in which a path is shown only by a command that takes it away, or
  if it may be left, `Simulation.tidy_duringFrame`, `Simulation.Tidy.ask` — they stay so.
* `Simulation.tidy_of_mem_moments` — the moments of requests, `Simulation.path_left_by_cancel` —
  only a cancellation leaves a path.
* `Simulation.cancelled_of_waiting` — it leaves the one that is shown.
-/

namespace ArmRover.Simulation

variable {α : Type} [Scalar α]

open ArmRover.Action

/-- The first half of a frame leaves what is seen of the arm as it is. -/
theorem outline_pass (cfg : Settings α) (dt : α) (s : Simulation α) :
    (final (pass cfg dt s)).scene.station.outline = s.scene.station.outline :=
  pass_preserves (P := fun t => t.outline = s.scene.station.outline)
    (Station.lasting_outline _) cfg dt
    (Sensors.preserves_refresh (Sensors.preserves_lookAhead (fun _ h => h) fun _ _ h => h)
      (fun _ h => h) (Sensors.preserves_scanAround (fun _ _ h => h) fun _ _ h => h)) rfl

/-- Where the program waits, what is left of its command leaves no path behind but one that may be
left. Where it does not wait, no other one is shown. -/
def Tidy (cfg : Settings α) (Left : Option (List (Point α)) → Prop) (s : Simulation α) : Prop :=
  match s.job with
  | some (.waiting _ rest) => Step.Tidy cfg Left s.scene.station.arm.preview rest.steps
  | _ => Left s.scene.station.arm.preview

variable {cfg : Settings α} {Left : Option (List (Point α)) → Prop} {s : Simulation α}

theorem Tidy.of_waiting (h : s.Tidy cfg Left) {ticket : Nat} {rest : Execution α}
    (hjob : s.job = some (.waiting ticket rest)) :
    Step.Tidy cfg Left s.scene.station.arm.preview rest.steps := by
  unfold Tidy at h
  rw [hjob] at h
  exact h

theorem Tidy.of_not_waiting (h : s.Tidy cfg Left)
    (hjob : ∀ ticket rest, s.job ≠ some (.waiting ticket rest)) :
    Left s.scene.station.arm.preview := by
  unfold Tidy at h
  split at h
  · next hwaiting => exact absurd hwaiting (hjob _ _)
  · exact h

theorem tidy_of_not_waiting (hjob : ∀ ticket rest, s.job ≠ some (.waiting ticket rest))
    (h : Left s.scene.station.arm.preview) : s.Tidy cfg Left := by
  unfold Tidy
  split
  · next hwaiting => exact absurd hwaiting (hjob _ _)
  · exact h

/-- What neither changes the path nor the program keeps a simulation tidy. -/
theorem Tidy.congr (h : s.Tidy cfg Left) {t : Simulation α}
    (hpreview : t.scene.station.arm.preview = s.scene.station.arm.preview) (hjob : t.job = s.job) :
    t.Tidy cfg Left := by
  unfold Tidy at h ⊢
  rw [hjob, hpreview]
  exact h

/-! ### One frame -/

theorem tidy_advanceJob {act : Action α (Scene α) (Progress α)}
    (h : Execution.Tidied cfg Left (act s.scene)) : (s.advanceJob act).Tidy cfg Left := by
  unfold advanceJob
  cases hrun : act s.scene with
  | error fault t =>
    rw [hrun] at h
    exact h
  | ok progress t =>
    rw [hrun] at h
    cases progress with
    | done readings => exact h
    | waiting ticket rest => exact h

theorem tidy_runReady (hmotion : cfg.motion.Followable) (hnone : Left none)
    (h : s.Tidy cfg Left) : (s.runReady cfg).Tidy cfg Left := by
  unfold runReady
  split
  · next commands hjob =>
    have hleft : Left s.scene.station.arm.preview := h.of_not_waiting (by rw [hjob]; exact nofun)
    have hhome : Left (s.scene.station.home cfg.toRig).arm.preview := by
      unfold Station.home
      split
      · exact hnone
      · exact hleft
    have hpausing : ∀ step ∈ [Step.pausing cfg.pauses.reset],
        step.shown (s.scene.station.home cfg.toRig).arm.preview =
          (s.scene.station.home cfg.toRig).arm.preview :=
      List.forall_mem_singleton.mpr (Step.shown_pausing _ _)
    refine tidy_advanceJob (Execution.tidied_run hmotion hnone _ ?_)
    exact Step.tidy_of_shown hhome hpausing
  · next hjob => exact tidy_of_not_waiting nofun (h.of_not_waiting (by rw [hjob]; exact nofun))
  · exact h

theorem tidy_wake (hmotion : cfg.motion.Followable) (hnone : Left none) (h : s.Tidy cfg Left) :
    (s.wake cfg).2.Tidy cfg Left := by
  by_cases hjob : ∃ ticket rest, s.job = some (.waiting ticket rest)
  · obtain ⟨ticket, rest, hjob⟩ := hjob
    rw [wake_of_waiting cfg hjob]
    dsimp only
    split
    · exact tidy_advanceJob (s := s.released)
        (Execution.tidied_run hmotion hnone rest.commands (h.of_waiting hjob))
    · exact h.congr rfl rfl
  · rw [wake_of_not_waiting cfg fun ticket rest hwaiting => hjob ⟨ticket, rest, hwaiting⟩]
    exact h.congr rfl rfl

theorem tidy_duringSettle (hmotion : cfg.motion.Followable) (hnone : Left none) (n : Nat)
    (h : s.Tidy cfg Left) : ∀ t ∈ s.duringSettle cfg n, t.Tidy cfg Left := by
  induction n generalizing s with
  | zero => exact List.forall_mem_nil _
  | succ n ih =>
    have hwake := tidy_wake hmotion hnone h
    have hreleased : s.released.Tidy cfg Left := h.congr rfl rfl
    unfold duringSettle
    refine List.forall_mem_cons.mpr ⟨hreleased, ?_⟩
    split
    · next t hrun =>
      rw [hrun] at hwake
      exact List.forall_mem_singleton.mpr hwake
    · next t hrun =>
      rw [hrun] at hwake
      exact List.forall_mem_cons.mpr ⟨hwake, ih hwake⟩

theorem tidy_duringFrame (hmotion : cfg.motion.Followable) (hnone : Left none) (dt : α)
    (h : s.Tidy cfg Left) : ∀ t ∈ s.duringFrame cfg dt, t.Tidy cfg Left := by
  have hpass : (final (pass cfg dt s)).Tidy cfg Left :=
    h.congr (congrArg Outline.preview (outline_pass cfg dt s)) (passed cfg dt s).job
  unfold duringFrame
  cases hrun : pass cfg dt s with
  | error fault t =>
    rw [hrun] at hpass
    exact List.forall_mem_singleton.mpr hpass
  | ok _ t =>
    rw [hrun] at hpass
    have hready := tidy_runReady hmotion hnone hpass
    refine List.forall_mem_cons.mpr ⟨hpass, List.forall_mem_cons.mpr ⟨hready, ?_⟩⟩
    exact tidy_duringSettle hmotion hnone _ hready

theorem marks_tidy (hmotion : cfg.motion.Followable) (hnone : Left none) :
    Marks cfg (Tidy cfg Left) (Tidy cfg Left) where
  frame dt s h :=
    tidy_duringFrame hmotion hnone dt h _ (List.mem_of_getLast? (getLast?_duringFrame cfg dt s))
  during dt _ h := tidy_duringFrame hmotion hnone dt h

/-! ### Requests -/

/-- An arm that goes home shows nothing, and a program for the rover shows nothing new. -/
theorem Tidy.left_home (hnone : Left none) (h : s.Tidy cfg Left) (hdedicated : s.Dedicated) :
    Left (s.scene.station.home cfg.toRig).arm.preview := by
  unfold Station.home
  cases hactive : s.scene.station.active with
  | arm => exact hnone
  | rover =>
    show Left s.scene.station.arm.preview
    by_cases hjob : ∃ ticket rest, s.job = some (.waiting ticket rest)
    · obtain ⟨ticket, rest, hjob⟩ := hjob
      have hfor := hdedicated ticket rest hjob
      rw [hactive] at hfor
      exact Step.left_of_tidy_rover (h.of_waiting hjob) hfor.steps
    · exact h.of_not_waiting fun ticket rest hwaiting => hjob ⟨ticket, rest, hwaiting⟩

theorem uncancelled_tidy (hmotion : cfg.motion.Followable) (hnone : Left none) :
    Uncancelled cfg (fun _ => True) fun s => s.Tidy cfg Left ∧ s.Dedicated where
  started commands hrunning h :=
    ⟨tidy_of_not_waiting nofun (h.1.of_not_waiting (not_waiting_of_not_running hrunning)),
      dedicated_of_fresh rfl⟩
  switched _ hrunning h := ⟨h.1.congr rfl rfl, dedicated_of_not_running hrunning⟩
  told hjob h :=
    ⟨tidy_of_not_waiting nofun (h.1.of_not_waiting (by rw [hjob]; exact nofun)),
      dedicated_of_not_running rfl⟩
  reset _ h := by
    have hleft := h.1.left_home hnone h.2
    exact ⟨tidy_of_not_waiting nofun hleft, dedicated_of_not_running rfl⟩
  frame {dt} _ s h := by
    refine ⟨(marks_tidy hmotion hnone).frame dt s h.1, ?_⟩
    rw [final_frame]
    exact h.2.ask cfg (.frame dt)

/-- A cancellation leaves the path that is shown. -/
theorem preserves_left_cancel :
    Preserves (fun s => s.Tidy cfg Left ∧ (s.running = true → Left s.scene.station.arm.preview))
      (cancel : Action α (Simulation α) Unit) := by
  refine preserves_get_bind fun s h => ?_
  cases hjob : s.job with
  | none => exact h
  | some job =>
    cases job with
    | fresh commands =>
      have hleft := h.2 (by unfold running; rw [hjob]; rfl)
      exact ⟨tidy_of_not_waiting nofun hleft, fun _ => hleft⟩
    | waiting ticket rest =>
      have hleft := h.2 (by unfold running; rw [hjob]; rfl)
      exact ⟨tidy_of_not_waiting nofun hleft, fun _ => hleft⟩
    | cancelling => exact h
    | cancelled => exact h
    | failed fault => exact h
    | finished readings => exact h

theorem Tidy.ask_cancel (h : s.Tidy cfg Left)
    (hleft : s.running = true → Left s.scene.station.arm.preview) :
    (s.ask cfg .cancel).2.Tidy cfg Left := by
  have hcarry : Preserves
      (fun s => s.Tidy cfg Left ∧ (s.running = true → Left s.scene.station.arm.preview))
      (carryOut cfg .cancel) := preserves_bind preserves_left_cancel fun _ => preserves_pure _
  exact (ask_preserves hcarry ⟨h, hleft⟩).1

theorem Tidy.ask (hmotion : cfg.motion.Followable) (hnone : Left none) (h : s.Tidy cfg Left)
    (hdedicated : s.Dedicated) (r : Request α)
    (hleft : r = .cancel → s.running = true → Left s.scene.station.arm.preview) :
    (s.ask cfg r).2.Tidy cfg Left := by
  by_cases hr : r = .cancel
  · subst hr
    exact h.ask_cancel (hleft rfl)
  · exact ((uncancelled_tidy hmotion hnone).ask hr (fun _ _ => trivial) ⟨h, hdedicated⟩).1

/-! ### Moments -/

/-- If what cancellations leave may be left, so may be what is shown whenever no program runs. -/
theorem tidy_of_mem_moments (hmotion : cfg.motion.Followable) (hnone : Left none)
    (h : s.Tidy cfg Left) (hdedicated : s.Dedicated) {requests : List (Request α)}
    (hcancel : ∀ before after, requests = before ++ .cancel :: after →
      (s.after cfg before).running = true →
      Left (s.after cfg before).scene.station.arm.preview) :
    ∀ t ∈ s.moments cfg (requests.map .request), t.Tidy cfg Left := by
  induction requests generalizing s with
  | nil => exact List.forall_mem_singleton.mpr h
  | cons r rest ih =>
    refine List.forall_mem_append.mpr ⟨List.forall_mem_cons.mpr ⟨h, ?_⟩, ?_⟩
    · exact (marks_tidy hmotion hnone).request r h
    · have hleft : r = .cancel → s.running = true → Left s.scene.station.arm.preview := by
        rintro rfl
        exact hcancel [] rest rfl
      refine ih (h.ask hmotion hnone hdedicated r hleft) (hdedicated.ask cfg r) ?_
      rintro before after rfl
      exact hcancel (r :: before) after rfl

/-- What requests lead to is the last one of their moments. -/
theorem after_mem_moments (cfg : Settings α) (s : Simulation α) (requests : List (Request α)) :
    s.after cfg requests ∈ s.moments cfg (requests.map .request) := by
  induction requests generalizing s with
  | nil => exact List.mem_singleton_self s
  | cons r rest ih => exact List.mem_append_right _ (ih (s.ask cfg r).2)

/-! ### Cancellations -/

theorem ask_cancel_of_waiting (cfg : Settings α) {ticket : Nat} {rest : Execution α}
    (hjob : s.job = some (.waiting ticket rest)) :
    s.ask cfg .cancel = (.ok .done,
      ⟨{ s.scene with clock := s.scene.clock.drop ticket }, s.world, some .cancelling⟩) := by
  obtain ⟨scene, world, job⟩ := s
  cases hjob
  rfl

/-- A program that is cancelled while it waits leaves the path that is shown. -/
theorem cancelled_of_waiting {ticket : Nat} {rest : Execution α}
    (hjob : s.job = some (.waiting ticket rest)) {dt : α} {t : Simulation α}
    (hpass : pass cfg dt (s.ask cfg .cancel).2 = .ok () t) :
    (t.serve cfg).running = false ∧
      (t.serve cfg).scene.station.arm.preview = s.scene.station.arm.preview := by
  have hpassed := passed_of_pass hpass
  have houtline := outline_pass cfg dt (s.ask cfg .cancel).2
  rw [hpass] at houtline
  rw [ask_cancel_of_waiting cfg hjob] at hpassed houtline
  have hready : t.runReady cfg = { t with job := some .cancelled } := by
    unfold runReady
    rw [hpassed.job]
  unfold serve
  rw [hready]
  obtain ⟨hstation, -, hend⟩ := settle_of_not_running cfg
    (s := { t with job := some .cancelled }) rfl
    (({ t with job := some .cancelled } : Simulation α).sleepsLeft cfg + 2)
  refine ⟨running_congr hend, ?_⟩
  rw [hstation]
  exact congrArg Outline.preview houtline

/-- A program that moves the tip, in frames as long as the pause at its start, waits in the second
frame and shows the path, if the parts of the path take some time. -/
theorem shows_of_two_passes {cfg : Settings ℝ} {dt : ℝ} {s u v : Simulation ℝ} {target : Point ℝ}
    (hjob : s.job = some (.fresh [.moveToPose target])) (hwaits : s.scene.clock.waits = [])
    (hactive : s.scene.station.active = .arm) (htimed : cfg.Timed)
    (hserves : cfg.Serves (.moveToPose target)) (hreset : Clock.slack < cfg.pauses.reset.amount)
    (hdt : cfg.pauses.reset.amount ≤ dt)
    (hpart : Clock.slack < cfg.motion.poseTime.amount / cfg.motion.parts)
    (hpass : pass cfg dt s = .ok () u) (hagain : pass cfg dt (u.serve cfg) = .ok () v) :
    (∃ ticket rest, (v.serve cfg).job = some (.waiting ticket rest)) ∧
      (v.serve cfg).scene.station.arm.preview ≠ none := by
  obtain ⟨w, hdue, hasleep, -, -⟩ := asleep_of_fresh hjob hwaits hreset hpass
  have hcommands : ([.moveToPose target] : List (Command ℝ)).filter
      (fun c => c.robot == s.scene.station.active) = [.moveToPose target] := by
    rw [hactive]
    rfl
  rw [hcommands] at hasleep
  have hv := hasleep.pass hagain
  have hmet : w.due.Met (u.scene.clock.now + (1 : Nat) * dt) 1 := by
    rw [hdue]
    show u.scene.clock.now + cfg.pauses.reset.amount - Clock.slack ≤ _
    rw [Nat.cast_one, one_mul]
    linarith [Clock.slack_nonneg]
  -- the command begins in the second frame, and waits after its first configuration
  obtain ⟨points, path, hlength, hsteps⟩ :=
    Step.toPose?_of_serves htimed hserves v.released.scene.station.arm.joints
  let part : ℝ := cfg.motion.poseTime.amount / cfg.motion.parts
  have hpos : 0 < part := Clock.slack_nonneg.trans_lt hpart
  cases path with
  | nil =>
    have hnone : part = 0 := by
      show _ / (cfg.motion.parts : ℝ) = 0
      rw [← hlength, List.length_nil, Nat.cast_zero, div_zero]
    exact absurd hnone hpos.ne'
  | cons q path =>
    let posed : Scene ℝ :=
      (v.released.scene.onStation (·.setPreview (some points))).onStation (·.setJoints q)
    let waiting : Scene ℝ :=
      { posed with clock := posed.clock.register (.time (v.scene.clock.now + part)) }
    let left : List (Step ℝ) := Step.follow path part ++
      [.sleep cfg.motion.previewTime.amount, .preview none]
    have hplan : Command.steps? cfg v.released.scene (.moveToPose target) =
      .ok (.preview (some points) :: .pose q :: .sleep part :: left) := hsteps
    have hresume : Execution.resume cfg ⟨[], [.moveToPose target], []⟩ v.released.scene =
        .ok (.waiting v.scene.clock.issued ⟨left, [], []⟩) waiting := by
      refine (Execution.run_command hplan).trans ?_
      refine (Execution.run_done (t := v.released.scene.onStation _) rfl).trans ?_
      refine (Execution.run_done (t := posed) rfl).trans ?_
      exact Execution.run_waits (Step.take_sleep_of_pos hpos)
    -- a part of the path takes longer than the slack, so that the wait does not end in this frame
    have hnot : ¬ (Due.time (v.scene.clock.now + part)).Met v.scene.clock.now 0 := by
      show ¬ v.scene.clock.now + part - Clock.slack ≤ v.scene.clock.now
      linarith
    rw [hv.serve_of_waits hmet hresume rfl rfl hnot]
    exact ⟨⟨_, _, rfl⟩, nofun⟩

/-- A movement of the tip that is cancelled in the second frame, and the frame after that. -/
noncomputable def cancelledMove : List (Request ℝ) :=
  [.start [.moveToPose ⟨1 / (2 : ℕ), 1 / (2 : ℕ), 0⟩], .frame 1, .frame 1, .cancel, .frame 1]

/-- With the built-in settings that leaves a path behind. -/
theorem preview_after_cancelledMove :
    let s := (new (Settings.standard : Settings ℝ) []).after .standard cancelledMove
    s.running = false ∧ s.scene.station.arm.preview ≠ none := by
  intro s
  let cfg : Settings ℝ := .standard
  let started : Simulation ℝ :=
    ((new cfg []).ask cfg (.start [.moveToPose ⟨1 / (2 : ℕ), 1 / (2 : ℕ), 0⟩])).2
  have hpasses := yields_pass_steady Settings.steady_standard 1
  obtain ⟨_, u, hu, hsteadyu⟩ := hpasses started ⟨rfl, ⟨_, rfl⟩⟩
  obtain ⟨_, v, hv, hsteadyv⟩ :=
    hpasses (u.serve cfg) (steady_serve Settings.steady_standard hsteadyu)
  have hslack : (Clock.slack : ℝ) = (1 : ℕ) / 10 ^ 9 := Value.amount_decimal 1 9
  have hreset : cfg.pauses.reset.amount = 5 / 10 ^ 1 := Value.amount_decimal 5 1
  have hpart : cfg.motion.poseTime.amount / cfg.motion.parts = 20 / 10 ^ 1 / 20 :=
    congrArg (· / 20) (Value.amount_decimal 20 1)
  obtain ⟨⟨ticket, rest, hjob⟩, hpreview⟩ := shows_of_two_passes (s := started) rfl rfl rfl
    Settings.timed_standard (Settings.serves_standard _) (by rw [hreset, hslack]; norm_num)
    (by rw [hreset]; norm_num) (by rw [hpart, hslack]; norm_num) hu hv
  have hsteady : ((v.serve cfg).ask cfg .cancel).2.scene.station.Steady := by
    rw [ask_cancel_of_waiting cfg hjob]
    exact steady_serve Settings.steady_standard hsteadyv
  obtain ⟨_, w, hw, -⟩ := hpasses _ hsteady
  have hs : s = w.serve cfg := by
    show (((((started.ask cfg (.frame 1)).2.ask cfg (.frame 1)).2.ask cfg .cancel).2).ask cfg
      (.frame 1)).2 = _
    rw [ask_frame hu, ask_frame hv, ask_frame hw]
  obtain ⟨hrunning, hleft⟩ := cancelled_of_waiting hjob hw
  rw [hs]
  exact ⟨hrunning, hleft ▸ hpreview⟩

/-! ### What is left behind -/

/-- Whatever is asked of a new simulation, with settings that let a path be followed to its end.
Whenever no program runs, also within a request, either no path is shown, or the one that was shown
when a program that ran was cancelled. -/
theorem path_left_by_cancel (cfg : Settings α) (hmotion : cfg.motion.Followable) (world : World α)
    (requests : List (Request α)) :
    let built := new cfg world
    ∀ s ∈ built.moments cfg (requests.map .request), s.running = false →
      s.scene.station.arm.preview = none ∨
        ∃ before after, requests = before ++ .cancel :: after ∧
          (built.after cfg before).running = true ∧
          (built.after cfg before).scene.station.arm.preview =
            s.scene.station.arm.preview := by
  intro built s hs hrunning
  let Left : Option (List (Point α)) → Prop := fun path => path = none ∨
    ∃ before after, requests = before ++ .cancel :: after ∧
      (built.after cfg before).running = true ∧
      (built.after cfg before).scene.station.arm.preview = path
  have hbuilt : built.Tidy cfg Left := tidy_of_not_waiting nofun (.inl rfl)
  have htidy : s.Tidy cfg Left := tidy_of_mem_moments hmotion (.inl rfl) hbuilt
    (dedicated_of_not_running rfl)
    (fun before after hrequests hran => .inr ⟨before, after, hrequests, hran, rfl⟩) s hs
  exact htidy.of_not_waiting (not_waiting_of_not_running hrunning)

/-- The path that is left after a movement was cancelled is the one that it showed. -/
theorem path_left_by_cancel_of_move :
    let cfg : Settings ℝ := .standard
    let built := new cfg []
    let s := built.after cfg cancelledMove
    cfg.motion.Followable ∧ s ∈ built.moments cfg (cancelledMove.map .request) ∧
      s.running = false ∧
      ∃ before after, cancelledMove = before ++ .cancel :: after ∧
        (built.after cfg before).running = true ∧
        (built.after cfg before).scene.station.arm.preview = s.scene.station.arm.preview := by
  intro cfg built s
  have hmotion : cfg.motion.Followable := Settings.Motion.followable ⟨_, rfl⟩ ⟨_, rfl⟩
  have hmem := after_mem_moments cfg built cancelledMove
  obtain ⟨hrunning, hpreview⟩ := preview_after_cancelledMove
  refine ⟨hmotion, hmem, hrunning, ?_⟩
  exact (path_left_by_cancel cfg hmotion [] cancelledMove s hmem hrunning).resolve_left hpreview

/-- Not every path is taken away when no program runs. -/
theorem not_every_path_taken_away :
    ¬ ∀ (cfg : Settings ℝ) (world : World ℝ) (requests : List (Request ℝ)),
      ∀ s ∈ (new cfg world).moments cfg (requests.map .request), s.running = false →
        s.scene.station.arm.preview = none := by
  intro h
  obtain ⟨hrunning, hpreview⟩ := preview_after_cancelledMove
  exact hpreview (h .standard [] cancelledMove _ (after_mem_moments _ _ _) hrunning)

end ArmRover.Simulation
