import ArmRover.Proofs.Execution.Echo
import ArmRover.Proofs.Simulation.Frame
import ArmRover.Proofs.Simulation.Request

/-!
# Simulations that echo another one

A simulation that echoes another one goes on as that other one does, whatever is asked of both, as
long as the active robot stays the same. Programs that have not begun only have to agree on the
commands for that robot.

* `Job.Echoes` — programs in two runs, `Simulation.Echoes` — simulations that echo another one.
* `Simulation.echo_frame` — one frame.
* `Simulation.echo_runToEnd`, `Simulation.echo_elapse` — many frames.
* `Simulation.echo_start`, `Simulation.echo_reset` and others — requests,
  `Simulation.echo_carryOut` — any of them, `Simulation.Echoes.trace` — one after the other.
-/

namespace ArmRover

variable {α : Type} [Scalar α] (d : Offset α)

/-- The first program is the second one in a shifted run, as far as the active robot goes. What is
left of it is for that robot. -/
inductive Job.Echoes (active : Robot) : Job α → Job α → Prop where
  | fresh {commands commands' : List (Command α)} :
    commands.filter (fun c => c.robot == active) =
      commands'.filter (fun c => c.robot == active) →
    Echoes active (.fresh commands) (.fresh commands')
  | waiting (ticket : Nat) {rest : Execution α} : rest.For active →
    Echoes active (.waiting (ticket + d.tickets) (rest.shift d)) (.waiting ticket rest)
  | cancelling : Echoes active .cancelling .cancelling
  | cancelled : Echoes active .cancelled .cancelled
  | failed (fault : Fault α) : Echoes active (.failed fault) (.failed fault)
  | finished (readings : List (Value α)) : Echoes active (.finished readings) (.finished readings)

/-- The first simulation is the second one in a shifted run, as far as the active robot goes. What
belongs to the other robot is as it was in two earlier stations. -/
structure Simulation.Echoes (active : Robot) (kept : Station α × Station α) (s t : Simulation α) :
    Prop where
  scene : Scene.Echoes d active kept s.scene t.scene
  world : s.world = t.world
  job : Option.Rel (Job.Echoes d active) s.job t.job

variable {d} {active : Robot} {kept : Station α × Station α}

open ArmRover.Action

/-- A program that waits is an echo of one that waits, with a shifted ticket. -/
theorem Job.Echoes.eq_waiting {job : Option (Job α)} {ticket : Nat} {rest : Execution α}
    (h : Option.Rel (Job.Echoes d active) job (some (.waiting ticket rest))) :
    job = some (.waiting (ticket + d.tickets) (rest.shift d)) ∧ rest.For active := by
  cases h with
  | some h =>
    cases h with
    | waiting _ hfor => exact ⟨rfl, hfor⟩

theorem Job.Echoes.exists_waiting {job : Option (Job α)} {ticket : Nat} {rest : Execution α}
    (h : Option.Rel (Job.Echoes d active) (some (.waiting ticket rest)) job) :
    ∃ ticket' rest', job = some (.waiting ticket' rest') := by
  cases h with
  | some h =>
    cases h with
    | waiting ticket' _ => exact ⟨ticket', _, rfl⟩

namespace Simulation

namespace Echoes

variable {s t : Simulation α}

theorem running (h : Simulation.Echoes d active kept s t) : s.running = t.running := by
  obtain ⟨-, -, hjob⟩ := h
  unfold Simulation.running
  generalize s.job = j at hjob ⊢
  generalize t.job = k at hjob ⊢
  cases hjob with
  | none => rfl
  | some hjob => cases hjob <;> rfl

/-- Simulations with other programs. -/
theorem withJob {job job' : Option (Job α)} (h : Simulation.Echoes d active kept s t)
    (hjob : Option.Rel (Job.Echoes d active) job job') :
    Simulation.Echoes d active kept { s with job := job } { t with job := job' } :=
  ⟨h.scene, h.world, hjob⟩

/-! ### Frames -/

/-- A stretch of a program that ends alike in both. -/
theorem of_alike {act act' : Action α (Scene α) (Progress α)} (hworld : s.world = t.world)
    (hend : Alike (Scene.Echoes d active kept) (fun p q => p = q.shift d ∧ q.For active)
      (act s.scene) (act' t.scene)) :
    Simulation.Echoes d active kept (s.advanceJob act) (t.advanceJob act') := by
  unfold Simulation.advanceJob
  generalize act s.scene = u at hend ⊢
  generalize act' t.scene = v at hend ⊢
  cases hend with
  | error hscene => exact ⟨hscene, hworld, .some (.failed _)⟩
  | @ok p q s' t' hpq hscene =>
    obtain ⟨rfl, hfor⟩ := hpq
    cases q with
    | done readings => exact ⟨hscene, hworld, .some (.finished readings)⟩
    | waiting ticket rest => exact ⟨hscene, hworld, .some (.waiting ticket hfor)⟩

theorem advanceJob (h : Simulation.Echoes d active kept s t)
    {act act' : Action α (Scene α) (Progress α)}
    (hact : Related (Scene.Echoes d active kept) (fun p q => p = q.shift d ∧ q.For active)
      act act') :
    Simulation.Echoes d active kept (s.advanceJob act) (t.advanceJob act') :=
  of_alike h.world (hact _ _ h.scene)

theorem runReady (cfg : Settings α) (h : Simulation.Echoes d active kept s t) :
    Simulation.Echoes d active kept (s.runReady cfg) (t.runReady cfg) := by
  have hjob := h.job
  unfold Simulation.runReady
  generalize s.job = j at hjob ⊢
  generalize t.job = k at hjob ⊢
  cases hjob with
  | none => exact h
  | some hjob =>
    cases hjob with
    | fresh hsame => exact h.advanceJob (Execution.echo_begin cfg hsame)
    | cancelling => exact h.withJob (.some .cancelled)
    | _ => exact h

theorem released (h : Simulation.Echoes d active kept s t) :
    Simulation.Echoes d active kept s.released t.released := by
  refine ⟨⟨h.scene.station, ?_⟩, h.world, h.job⟩
  show s.scene.clock.release = t.scene.clock.release.shift d
  rw [h.scene.clock, Clock.release_shift]

/-- The waits that are released are the same ones, and the program is resumed in both or in
neither. -/
theorem wake (cfg : Settings α) (h : Simulation.Echoes d active kept s t) :
    (s.wake cfg).1 = (t.wake cfg).1 ∧
      Simulation.Echoes d active kept (s.wake cfg).2 (t.wake cfg).2 := by
  have hlength : s.scene.clock.due.length = t.scene.clock.due.length := by
    rw [h.scene.clock, Clock.due_shift, List.length_map]
  have hjob := h.job
  by_cases hw : ∃ ticket rest, t.job = some (.waiting ticket rest)
  · obtain ⟨ticket, rest, ht⟩ := hw
    rw [ht] at hjob
    -- the tickets are shifted as well, so that the same wait is looked for
    obtain ⟨hs, hfor⟩ := Job.Echoes.eq_waiting hjob
    rw [wake_of_waiting cfg hs, wake_of_waiting cfg ht, h.scene.clock, Clock.due_shift,
      Clock.any_ticket_shift, List.length_map]
    refine ⟨rfl, ?_⟩
    dsimp only
    split
    · exact h.released.advanceJob (Execution.echo_resume cfg hfor)
    · exact h.released
  · have ht : ∀ ticket rest, t.job ≠ some (.waiting ticket rest) :=
      fun ticket rest h => hw ⟨ticket, rest, h⟩
    have hs : ∀ ticket rest, s.job ≠ some (.waiting ticket rest) := by
      intro ticket rest hs
      rw [hs] at hjob
      exact hw (Job.Echoes.exists_waiting hjob)
    rw [wake_of_not_waiting cfg hs, wake_of_not_waiting cfg ht]
    exact ⟨hlength, h.released⟩

theorem settle (cfg : Settings α) (n : Nat) (h : Simulation.Echoes d active kept s t) :
    Simulation.Echoes d active kept (s.settle cfg n) (t.settle cfg n) := by
  induction n generalizing s t with
  | zero => exact h
  | succ n ih =>
    obtain ⟨hcount, hnext⟩ := h.wake cfg
    unfold Simulation.settle
    generalize s.wake cfg = u at hcount hnext ⊢
    generalize t.wake cfg = v at hcount hnext ⊢
    obtain ⟨count, s'⟩ := u
    obtain ⟨count', t'⟩ := v
    obtain rfl : count = count' := hcount
    cases count with
    | zero => exact hnext
    | succ count => exact ih hnext

theorem sleepsLeft (cfg : Settings α) (h : Simulation.Echoes d active kept s t) :
    s.sleepsLeft cfg = t.sleepsLeft cfg := by
  have hjob := h.job
  unfold Simulation.sleepsLeft
  generalize s.job = j at hjob ⊢
  generalize t.job = k at hjob ⊢
  cases hjob with
  | none => rfl
  | some hjob =>
    cases hjob with
    | waiting ticket hfor => exact congrArg (· + 1) (Execution.sleepsLeft_shift cfg _)
    | _ => rfl

/-- The second half of a frame, once the program has run for the first time. -/
theorem serve_of_runReady (cfg : Settings α)
    (h : Simulation.Echoes d active kept (s.runReady cfg) (t.runReady cfg)) :
    Simulation.Echoes d active kept (s.serve cfg) (t.serve cfg) := by
  unfold Simulation.serve
  rw [h.sleepsLeft]
  exact h.settle cfg _

theorem serve (cfg : Settings α) (h : Simulation.Echoes d active kept s t) :
    Simulation.Echoes d active kept (s.serve cfg) (t.serve cfg) :=
  (h.runReady cfg).serve_of_runReady cfg

end Echoes

theorem echo_onStation {a b : Action α (Station α) Unit}
    (hab : Related (Station.Echoes d active kept) Eq a b) :
    Related (Simulation.Echoes d active kept) Eq (onStation a) (onStation b) :=
  related_on (fun _ _ h => h.scene.station) hab
    fun _ _ _ _ h hpq => ⟨⟨hpq, h.scene.clock⟩, h.world, h.job⟩

theorem echo_onClock {f g : Clock α → Clock α} (hfg : ∀ c, f (c.shift d) = (g c).shift d) :
    Related (Simulation.Echoes d active kept) Eq (onClock f) (onClock g) :=
  related_modify fun _ _ h =>
    ⟨⟨h.scene.station, by rw [h.scene.clock, hfg]⟩, h.world, h.job⟩

theorem echo_pass (cfg : Settings α) (dt : α) :
    Related (Simulation.Echoes d active kept) Eq (pass cfg dt) (pass cfg dt) := by
  unfold pass
  refine related_seq (echo_onClock fun c => Clock.advance_shift d c dt) fun _ => ?_
  refine related_bind related_get fun s t hst => ?_
  rw [hst.scene.clock, Clock.now_shift, hst.world]
  refine related_seq (echo_onStation (Feedback.echo_advance _ _)) fun _ => ?_
  refine related_seq (echo_onStation (Drive.echo_advance _ _ _)) fun _ => ?_
  exact echo_onStation (Sensors.echo_refresh _ _ _ _)

/-- One frame of the two simulations. -/
theorem echo_frame (cfg : Settings α) (dt : α) :
    Related (Simulation.Echoes d active kept) Eq (frame cfg dt) (frame cfg dt) := by
  rw [frame_eq]
  exact related_seq (echo_pass cfg dt) fun _ => related_modify fun _ _ h => h.serve cfg

/-! ### Many frames -/

theorem Echoes.verdict? {s t : Simulation α} (h : Simulation.Echoes d active kept s t)
    (limit : Value α) (since : α) :
    s.verdict? limit (d.time since) = t.verdict? limit since := by
  have hjob := h.job
  unfold Simulation.verdict?
  rw [h.scene.clock, Clock.now_shift, d.time_sub_time]
  generalize s.job = j at hjob ⊢
  generalize t.job = k at hjob ⊢
  cases hjob with
  | none => rfl
  | some hjob => cases hjob <;> rfl

theorem echo_tell (verdict : Except (Fault α) β) :
    Related (Simulation.Echoes d active kept) Eq (tell verdict) (tell verdict) := by
  unfold tell
  refine related_bind related_get fun s t hst => ?_
  have hjob := hst.job
  generalize s.job = j at hjob ⊢
  generalize t.job = k at hjob ⊢
  cases hjob with
  | none => exact related_lift verdict
  | some hjob =>
    cases hjob with
    | failed fault =>
      refine related_seq (related_modify fun s t h => h.withJob (.some (.failed _))) fun _ => ?_
      exact related_lift verdict
    | _ => exact related_lift verdict

theorem echo_runFrames (cfg : Settings α) (dt : α) (limit : Value α) (since : α)
    (frames : Nat) :
    Related (Simulation.Echoes d active kept) Eq (runFrames cfg dt limit (d.time since) frames)
      (runFrames cfg dt limit since frames) := by
  induction frames with
  | zero =>
    unfold runFrames
    refine related_bind related_get fun s t hst => ?_
    rw [hst.verdict?]
    cases t.verdict? limit since with
    | none => exact related_throw _
    | some verdict => exact echo_tell verdict
  | succ frames ih =>
    unfold runFrames
    refine related_bind related_get fun s t hst => ?_
    rw [hst.verdict?]
    cases t.verdict? limit since with
    | none => exact related_seq (echo_frame cfg dt) fun _ => ih
    | some verdict => exact echo_tell verdict

theorem echo_runToEnd (cfg : Settings α) (dt : α) (limit : Value α) (frames : Nat) :
    Related (Simulation.Echoes d active kept) Eq (runToEnd cfg dt limit frames)
      (runToEnd cfg dt limit frames) := by
  unfold runToEnd
  refine related_bind related_get fun s t hst => ?_
  rw [hst.scene.clock, Clock.now_shift]
  exact echo_runFrames cfg dt limit _ frames

theorem Echoes.before {s t : Simulation α} (h : Simulation.Echoes d active kept s t)
    (finish : α) : s.before (d.time finish) = t.before finish := by
  unfold Simulation.before
  rw [h.scene.clock, Clock.now_shift, d.time_sub]
  exact decide_eq_decide.mpr (d.time_lt_time _ _)

theorem echo_runTo (cfg : Settings α) (dt finish : α) (frames : Nat) :
    Related (Simulation.Echoes d active kept) Eq (runTo cfg dt (d.time finish) frames)
      (runTo cfg dt finish frames) := by
  induction frames with
  | zero =>
    unfold runTo
    refine related_bind related_get fun s t hst => ?_
    rw [hst.before]
    exact related_ite Iff.rfl (fun _ => related_throw _) fun _ => related_pure rfl
  | succ frames ih =>
    unfold runTo
    refine related_bind related_get fun s t hst => ?_
    rw [hst.before]
    refine related_ite Iff.rfl (fun _ => ?_) fun _ => related_pure rfl
    exact related_seq (echo_frame cfg dt) fun _ => ih

theorem echo_elapse (cfg : Settings α) (seconds dt : α) (frames : Nat) :
    Related (Simulation.Echoes d active kept) Eq (elapse cfg seconds dt frames)
      (elapse cfg seconds dt frames) := by
  unfold elapse
  refine related_bind related_get fun s t hst => ?_
  rw [hst.scene.clock, Clock.now_shift, d.time_add]
  exact echo_runTo cfg dt _ frames

/-! ### Requests -/

/-- Programs that agree on the commands for the active robot. -/
theorem echo_start {commands commands' : List (Command α)}
    (hsame : commands.filter (fun c => c.robot == active) =
      commands'.filter (fun c => c.robot == active)) :
    Related (Simulation.Echoes d active kept) Eq (start commands) (start commands') := by
  unfold start
  refine related_bind related_get fun s t hst => ?_
  rw [hst.running]
  refine related_when (fun _ => related_throw _) ?_
  exact related_modify fun s t h => h.withJob (.some (.fresh hsame))

theorem echo_startText (text : String) :
    Related (Simulation.Echoes d active kept) Eq (startText text) (startText text) := by
  unfold startText
  refine related_seq (related_lift _) fun commands => ?_
  refine related_ite Iff.rfl (fun _ => related_pure rfl) fun _ => ?_
  exact related_seq (echo_start rfl) fun _ => related_pure rfl

theorem echo_cancel :
    Related (Simulation.Echoes d active kept) Eq (cancel : Action α (Simulation α) Unit)
      cancel := by
  unfold cancel
  refine related_bind related_get fun s t hst => ?_
  have hjob := hst.job
  generalize s.job = j at hjob ⊢
  generalize t.job = k at hjob ⊢
  cases hjob with
  | none => exact related_throw _
  | some hjob =>
    cases hjob with
    | fresh hsame => exact related_modify fun s t h => h.withJob (.some .cancelling)
    | waiting ticket hfor =>
      refine related_seq (echo_onClock fun c => Clock.drop_shift d c ticket) fun _ => ?_
      exact related_modify fun s t h => h.withJob (.some .cancelling)
    | _ => exact related_pure rfl

theorem echo_reset (cfg : Settings α) :
    Related (Simulation.Echoes d active kept) Eq (reset cfg) (reset cfg) := by
  unfold reset
  refine related_seq (related_modify fun s t h => h.withJob .none) fun _ => ?_
  refine related_seq (echo_onClock fun c => Clock.dropAll_shift d c) fun _ => ?_
  exact echo_onStation (related_modify fun s t h => (h.home _).withGates fun _ => rfl)

theorem echo_carryOut_start (cfg : Settings α) {commands commands' : List (Command α)}
    (hsame : commands.filter (fun c => c.robot == active) =
      commands'.filter (fun c => c.robot == active)) :
    Related (Simulation.Echoes d active kept) Eq (carryOut cfg (.start commands))
      (carryOut cfg (.start commands')) :=
  related_seq (echo_start hsame) fun _ => related_pure rfl

/-- Every request but that for another robot has the same answer from both simulations. -/
theorem echo_carryOut (cfg : Settings α) {r : Request α} (hr : r.switches = false) :
    Related (Simulation.Echoes d active kept) Eq (carryOut cfg r) (carryOut cfg r) := by
  cases r with
  | start commands => exact echo_carryOut_start cfg rfl
  | startText text => exact related_seq (echo_startText text) fun _ => related_pure rfl
  | frame dt => exact related_seq (echo_frame cfg dt) fun _ => related_pure rfl
  | elapse seconds dt frames =>
    exact related_seq (echo_elapse cfg seconds dt frames) fun _ => related_pure rfl
  | runToEnd dt limit frames =>
    exact related_seq (echo_runToEnd cfg dt limit frames) fun _ => related_pure rfl
  | switchTo name => cases hr
  | cancel => exact related_seq echo_cancel fun _ => related_pure rfl
  | reset => exact related_seq (echo_reset cfg) fun _ => related_pure rfl

namespace Echoes

variable {s t : Simulation α}

/-- Requests that are carried out alike. -/
theorem ask_of_related {cfg : Settings α} {r r' : Request α}
    (h : Simulation.Echoes d active kept s t)
    (hr : Related (Simulation.Echoes d active kept) Eq (carryOut cfg r) (carryOut cfg r')) :
    (s.ask cfg r).1 = (t.ask cfg r').1 ∧
      Simulation.Echoes d active kept (s.ask cfg r).2 (t.ask cfg r').2 := by
  have hend := hr s t h
  unfold Simulation.ask
  generalize carryOut cfg r s = u at hend ⊢
  generalize carryOut cfg r' t = v at hend ⊢
  cases hend with
  | ok hreply hst =>
    subst hreply
    exact ⟨rfl, hst⟩
  | error hst => exact ⟨rfl, hst⟩

theorem ask (cfg : Settings α) (h : Simulation.Echoes d active kept s t) {r : Request α}
    (hr : r.switches = false) :
    (s.ask cfg r).1 = (t.ask cfg r).1 ∧
      Simulation.Echoes d active kept (s.ask cfg r).2 (t.ask cfg r).2 :=
  h.ask_of_related (echo_carryOut cfg hr)

/-- Every request has the same answer, and the simulation goes on being an echo. -/
theorem trace (cfg : Settings α) (h : Simulation.Echoes d active kept s t)
    {requests : List (Request α)} (hrequests : ∀ r ∈ requests, r.switches = false) :
    List.Forall₂ (fun x y => x.1 = y.1 ∧ Simulation.Echoes d active kept x.2 y.2)
      (s.trace cfg requests) (t.trace cfg requests) := by
  induction requests generalizing s t with
  | nil => exact .nil
  | cons r rest ih =>
    have hr := h.ask cfg (hrequests r List.mem_cons_self)
    exact .cons hr (ih hr.2 fun r hr => hrequests r (List.mem_cons_of_mem _ hr))

end Echoes

end Simulation

end ArmRover
