import ArmRover.Proofs.Simulation.Request
import ArmRover.Proofs.Station.Gates
import ArmRover.Proofs.Station.Resting

/-!
# The two halves of a frame

In the first half of a frame time passes for the robots and the sensors, and only that half can
fail; in the second half the program runs.

* `Simulation.pass`, `Simulation.serve` — the halves, `Simulation.frame_eq` — they make a frame.
* `Simulation.Passed`, `Simulation.passed` — what the first half changes apart from the robots: only
  the clock. `Simulation.pass_preserves_of`, `Simulation.pass_preserves` — what it preserves,
  `Simulation.exists_refresh_of_pass`, `Simulation.gates?_of_pass` — how it refreshes the sensors.
* `Simulation.released` — the simulation after a release, `Simulation.wake_of_waiting`,
  `Simulation.wake_of_not_waiting` — waking the program.
* `Simulation.settle_of_wake` — what every release keeps, `Simulation.serve_preserves_of`,
  `Simulation.serve_preserves` — what the second half preserves.
-/

namespace ArmRover.Simulation

variable {α β : Type} [Scalar α]

open ArmRover.Action

/-- Let time pass: the clock moves on, the robots move, and the sensors look. -/
def pass (cfg : Settings α) (dt : α) : Action α (Simulation α) Unit := do
  onClock (·.advance dt)
  let s ← get
  let now := s.scene.clock.now
  onStation (Feedback.advance cfg.grip.strokeTime dt)
  onStation (Drive.advance cfg.driving dt now)
  onStation (Sensors.refresh cfg.senses cfg.mapping s.world now)

/-- Time has passed for the second simulation since the first one, and nothing else has happened
than that the robots moved and the sensors looked. -/
structure Passed (dt : α) (s t : Simulation α) : Prop where
  clock : t.scene.clock = s.scene.clock.advance dt
  station : s.scene.station.Aged t.scene.station
  world : t.world = s.world
  job : t.job = s.job

theorem preserves_onStation {dt : α} {s₀ : Simulation α} {act : Action α (Station α) β}
    (h : Preserves s₀.scene.station.Aged act) : Preserves (Passed dt s₀) (onStation act) :=
  preserves_on (fun _ hs => hs.station) h fun _ _ hs hp => ⟨hs.clock, hp, hs.world, hs.job⟩

/-- The first half of a frame, also when it fails. -/
theorem passed (cfg : Settings α) (dt : α) (s : Simulation α) :
    Passed dt s (final (pass cfg dt s)) := by
  have hrest : Preserves (Passed dt s) (do
      let s ← get
      let now := s.scene.clock.now
      onStation (Feedback.advance cfg.grip.strokeTime dt)
      onStation (Drive.advance cfg.driving dt now)
      onStation (Sensors.refresh cfg.senses cfg.mapping s.world now)) := by
    have hlasting := Station.Aged.lasting s.scene.station
    refine preserves_bind preserves_get fun s => ?_
    refine preserves_bind (preserves_onStation (Feedback.preserves_advance hlasting _ _))
      fun _ => ?_
    refine preserves_bind (preserves_onStation (Drive.preserves_advance hlasting _ _ _))
      fun _ => ?_
    exact preserves_onStation Sensors.preserves_aged_refresh
  exact hrest { s with scene := { s.scene with clock := s.scene.clock.advance dt } }
    ⟨rfl, .refl _, rfl, rfl⟩

omit [Scalar α] in
/-- What an action preserves of the station holds in the simulation as well. -/
theorem preserves_station {P : Station α → Prop} {act : Action α (Station α) β}
    (h : Preserves P act) : Preserves (fun s => P s.scene.station) (onStation act) :=
  preserves_on (fun _ hs => hs) h fun _ _ _ hp => hp

/-- What the robots and the look of the sensors at the end of the frame preserve holds after the
first half of a frame, also when it fails. -/
theorem pass_preserves_of {P : Station α → Prop} {cfg : Settings α} {dt : α} {s : Simulation α}
    (harm : Preserves P (Feedback.advance cfg.grip.strokeTime dt))
    (hdrive : Preserves P (Drive.advance cfg.driving dt (s.scene.clock.advance dt).now))
    (hlook : Preserves P
      (Sensors.refresh cfg.senses cfg.mapping s.world (s.scene.clock.advance dt).now))
    (h : P s.scene.station) : P (final (pass cfg dt s)).scene.station := by
  have hrest : Preserves (fun t => P t.scene.station) (do
      onStation (Feedback.advance cfg.grip.strokeTime dt)
      onStation (Drive.advance cfg.driving dt (s.scene.clock.advance dt).now)
      onStation
        (Sensors.refresh cfg.senses cfg.mapping s.world (s.scene.clock.advance dt).now)) := by
    refine preserves_bind (preserves_station harm) fun _ => ?_
    exact preserves_bind (preserves_station hdrive) fun _ => preserves_station hlook
  exact hrest { s with scene := { s.scene with clock := s.scene.clock.advance dt } } h

/-- What outlasts any movement of the robots, and the look of the sensors at the end of the frame,
holds after the first half of a frame, also when it fails. -/
theorem pass_preserves {P : Station α → Prop} (hP : Station.Lasting P) (cfg : Settings α) (dt : α)
    {s : Simulation α} (hlook : Preserves P
      (Sensors.refresh cfg.senses cfg.mapping s.world (s.scene.clock.advance dt).now))
    (h : P s.scene.station) : P (final (pass cfg dt s)).scene.station :=
  pass_preserves_of (Feedback.preserves_advance hP _ _) (Drive.preserves_advance hP _ _ _) hlook h

theorem passed_of_pass_error {cfg : Settings α} {dt : α} {s t : Simulation α} {fault : Fault α}
    (h : pass cfg dt s = .error fault t) : Passed dt s t := by
  have hpassed := passed cfg dt s
  rw [h] at hpassed
  exact hpassed

theorem passed_of_pass {cfg : Settings α} {dt : α} {s t : Simulation α}
    (h : pass cfg dt s = .ok () t) : Passed dt s t := by
  have hpassed := passed cfg dt s
  rw [h] at hpassed
  exact hpassed

omit [Scalar α] in
theorem yields_onStation {P : Station α → Prop} {Q : β → Station α → Prop}
    {act : Action α (Station α) β} (h : Yields P act Q) :
    Yields (fun s => P s.scene.station) (onStation act) fun b s => Q b s.scene.station :=
  yields_on (fun _ hs => hs) h fun _ _ _ _ hp => hp

/-- With the built-in settings and an empty world, time can pass for a rover at rest, and the first
scan makes the map. -/
theorem yields_pass_resting (dt : ℝ) (gate : Option ℝ) :
    Yields (fun s => s.scene.station.Scanned gate ∧ s.world = []) (pass Settings.standard dt)
      fun _ s => s.scene.station.Resting ∧ (gate = none → s.scene.station.map.isSome = true) := by
  refine yields_bind (Q := fun _ s => s.scene.station.Scanned gate ∧ s.world = [])
    (yields_modify fun s hs => hs) fun _ => ?_
  refine yields_get fun s hs => ?_
  dsimp only
  rw [hs.2]
  refine yields_of (V := fun s => s.scene.station.Scanned gate) (fun t ht => ht ▸ hs.1) ?_
  refine yields_bind (yields_onStation (Feedback.yields_advance _ dt gate)) fun _ => ?_
  refine yields_bind (yields_onStation (Drive.yields_advance dt _ gate)) fun _ => ?_
  exact yields_onStation (Sensors.yields_refresh _ gate)

omit [Scalar α] in
theorem final_onStation (act : Action α (Station α) β) (s : Simulation α) :
    final (onStation act s) =
      { s with scene := { s.scene with station := final (act s.scene.station) } } := by
  unfold onStation on
  cases act s.scene.station <;> rfl

omit [Scalar α] in
theorem of_onStation_eq_ok {act : Action α (Station α) β} {b : β} {s t : Simulation α}
    (h : onStation act s = .ok b t) : act s.scene.station = .ok b t.scene.station := by
  unfold onStation on at h
  cases hrun : act s.scene.station with
  | ok b' station =>
    rw [hrun] at h
    cases h
    rfl
  | error fault station =>
    rw [hrun] at h
    cases h

/-- A first half without a fault ends with a refresh of the sensors, before which all that outlasts
any movement of the robots still holds. -/
theorem exists_refresh_of_pass {P : Station α → Prop} (hP : Station.Lasting P) {cfg : Settings α}
    {dt : α} {s t : Simulation α} (h : pass cfg dt s = .ok () t) (hs : P s.scene.station) :
    ∃ u, P u ∧ Sensors.refresh cfg.senses cfg.mapping s.world (s.scene.clock.advance dt).now u =
      .ok () t.scene.station := by
  unfold pass at h
  obtain ⟨_, s₁, ⟨⟩, h⟩ := exists_of_bind_eq_ok h
  rw [run_get_bind] at h
  obtain ⟨_, s₂, hfeedback, h⟩ := exists_of_bind_eq_ok h
  obtain ⟨_, s₃, hdrive, hrefresh⟩ := exists_of_bind_eq_ok h
  have h₂ := (Feedback.preserves_advance hP _ _).of_ok (of_onStation_eq_ok hfeedback) hs
  have h₃ := (Drive.preserves_advance hP _ _ _).of_ok (of_onStation_eq_ok hdrive) h₂
  exact ⟨s₃.scene.station, h₃, of_onStation_eq_ok hrefresh⟩

/-- After a first half without a fault the gates of the sensors do not depend on what the robots
were doing. -/
theorem gates?_of_pass {cfg : Settings α} {dt : α} {s t : Simulation α}
    (h : pass cfg dt s = .ok () t) :
    Sensors.gates? cfg.senses (s.scene.clock.advance dt).now s.scene.station.active
      s.scene.station.gates = .ok t.scene.station.gates := by
  obtain ⟨u, ⟨hactive, hgates⟩, hrefresh⟩ := exists_refresh_of_pass
    (Station.lasting_gates s.scene.station.active s.scene.station.gates) h ⟨rfl, rfl⟩
  rw [← hactive, ← hgates]
  exact Sensors.gates?_of_refresh hrefresh

/-- Let the program run until it waits for a later frame. -/
def serve (cfg : Settings α) (s : Simulation α) : Simulation α :=
  (s.runReady cfg).settle cfg ((s.runReady cfg).sleepsLeft cfg + 2)

theorem frame_eq (cfg : Settings α) (dt : α) :
    frame cfg dt = (do pass cfg dt; modify (·.serve cfg)) := by
  unfold frame pass
  simp only [bind_assoc]
  rfl

theorem frame_of_pass {cfg : Settings α} {dt : α} {s t : Simulation α}
    (h : pass cfg dt s = .ok () t) : frame cfg dt s = .ok () (t.serve cfg) := by
  rw [frame_eq, run_bind h]
  rfl

theorem frame_of_pass_error {cfg : Settings α} {dt : α} {s t : Simulation α} {fault : Fault α}
    (h : pass cfg dt s = .error fault t) : frame cfg dt s = .error fault t := by
  rw [frame_eq, run_bind_error h]

theorem ask_frame {cfg : Settings α} {dt : α} {s t : Simulation α}
    (h : pass cfg dt s = .ok () t) : s.ask cfg (.frame dt) = (.ok .done, t.serve cfg) :=
  ask_of_carryOut (run_bind (frame_of_pass h))

theorem ask_frame_error {cfg : Settings α} {dt : α} {s t : Simulation α} {fault : Fault α}
    (h : pass cfg dt s = .error fault t) : s.ask cfg (.frame dt) = (.error fault, t) :=
  ask_of_carryOut_error (run_bind_error (frame_of_pass_error h))

/-- A frame ends after its first half if that fails, and otherwise with the second one. -/
theorem ask_frame_cases (cfg : Settings α) (dt : α) (s : Simulation α) :
    (s.ask cfg (.frame dt)).2 = final (pass cfg dt s) ∨
      (s.ask cfg (.frame dt)).2 = (final (pass cfg dt s)).serve cfg := by
  cases hpass : pass cfg dt s with
  | ok _ t =>
    rw [ask_frame hpass]
    exact .inr rfl
  | error fault t =>
    rw [ask_frame_error hpass]
    exact .inl rfl

theorem final_frame (cfg : Settings α) (dt : α) (s : Simulation α) :
    final (frame cfg dt s) = (s.ask cfg (.frame dt)).2 := by
  cases hrun : pass cfg dt s with
  | ok _ t =>
    rw [frame_of_pass hrun, ask_frame hrun]
    rfl
  | error fault t =>
    rw [frame_of_pass_error hrun, ask_frame_error hrun]
    rfl

/-- A frame without a fault comes of a first half without one. -/
theorem exists_pass_of_ask_frame {cfg : Settings α} {dt : α} {s : Simulation α}
    {reply : Reply α} (h : (s.ask cfg (.frame dt)).1 = .ok reply) :
    ∃ t, pass cfg dt s = .ok () t := by
  cases hrun : pass cfg dt s with
  | ok _ t => exact ⟨t, rfl⟩
  | error fault t =>
    rw [ask_frame_error hrun] at h
    cases h

/-- The simulation after the waits whose time has come are released. -/
def released (s : Simulation α) : Simulation α :=
  { s with scene := { s.scene with clock := s.scene.clock.release } }

theorem wake_of_waiting (cfg : Settings α) {s : Simulation α} {ticket : Nat} {rest : Execution α}
    (h : s.job = some (.waiting ticket rest)) :
    s.wake cfg = (s.scene.clock.due.length,
      if s.scene.clock.due.any (·.ticket == ticket) then
        s.released.advanceJob (Execution.resume cfg rest)
      else s.released) := by
  obtain ⟨scene, world, job⟩ := s
  cases h
  unfold wake
  dsimp only
  split <;> rfl

theorem wake_of_not_waiting (cfg : Settings α) {s : Simulation α}
    (h : ∀ ticket rest, s.job ≠ some (.waiting ticket rest)) :
    s.wake cfg = (s.scene.clock.due.length, s.released) := by
  unfold wake
  dsimp only
  split
  · next hjob => exact absurd hjob (h _ _)
  · rfl

/-- Where nobody waits there is nothing to release. -/
theorem wake_of_no_waits (cfg : Settings α) {s : Simulation α}
    (hjob : ∀ ticket rest, s.job ≠ some (.waiting ticket rest))
    (hwaits : s.scene.clock.waits = []) : s.wake cfg = (0, s) := by
  have hreleased : s.released = s := by
    obtain ⟨⟨station, now, frame, waits, issued⟩, world, job⟩ := s
    cases hwaits
    rfl
  rw [wake_of_not_waiting cfg hjob, hreleased]
  unfold Clock.due
  rw [hwaits]
  rfl

/-- What every release keeps holds when none is due any more. -/
theorem settle_of_wake {cfg : Settings α} {P : Simulation α → Prop}
    (hwake : ∀ s, P s → P (s.wake cfg).2) (fuel : Nat) {s : Simulation α} (h : P s) :
    P (s.settle cfg fuel) := by
  induction fuel generalizing s with
  | zero => exact h
  | succ fuel ih =>
    have hnext := hwake s h
    unfold settle
    split
    · next hrun =>
      rw [hrun] at hnext
      exact hnext
    · next hrun =>
      rw [hrun] at hnext
      exact ih hnext

/-! ### What the second half preserves -/

section Preserved

variable {P : Scene α → Prop}

omit [Scalar α] in
theorem advanceJob_preserves {act : Action α (Scene α) (Progress α)} (hact : Preserves P act)
    {s : Simulation α} (h : P s.scene) : P (s.advanceJob act).scene := by
  have hend := hact s.scene h
  unfold advanceJob
  generalize act s.scene = u at hend ⊢
  cases u with
  | error fault scene => exact hend
  | ok progress scene => cases progress <;> exact hend

theorem wake_preserves (cfg : Settings α)
    (hrelease : ∀ s, P s → P { s with clock := s.clock.release })
    (hresume : ∀ rest, Preserves P (Execution.resume cfg rest)) {s : Simulation α}
    (h : P s.scene) : P (s.wake cfg).2.scene := by
  by_cases hjob : ∃ ticket rest, s.job = some (.waiting ticket rest)
  · obtain ⟨ticket, rest, hjob⟩ := hjob
    rw [wake_of_waiting cfg hjob]
    dsimp only
    split
    · exact advanceJob_preserves (s := s.released) (hresume rest) (hrelease s.scene h)
    · exact hrelease s.scene h
  · rw [wake_of_not_waiting cfg fun ticket rest hwaiting => hjob ⟨ticket, rest, hwaiting⟩]
    exact hrelease s.scene h

theorem settle_preserves (cfg : Settings α)
    (hrelease : ∀ s, P s → P { s with clock := s.clock.release })
    (hresume : ∀ rest, Preserves P (Execution.resume cfg rest)) (fuel : Nat) {s : Simulation α}
    (h : P s.scene) : P (s.settle cfg fuel).scene :=
  settle_of_wake (P := fun t => P t.scene)
    (fun _ ht => wake_preserves cfg hrelease hresume ht) fuel h

/-- What the release of waits and every stretch of a program preserve holds after the second half
of a frame, if the program that begins in it preserves it too. -/
theorem serve_preserves_of (cfg : Settings α) {s : Simulation α}
    (hrelease : ∀ s, P s → P { s with clock := s.clock.release })
    (hbegin : ∀ commands, s.job = some (.fresh commands) →
      Preserves P (Execution.begin cfg commands))
    (hresume : ∀ rest, Preserves P (Execution.resume cfg rest)) (h : P s.scene) :
    P (s.serve cfg).scene := by
  refine settle_preserves cfg hrelease hresume _ ?_
  unfold runReady
  split
  · next commands hjob => exact advanceJob_preserves (hbegin commands hjob) h
  · exact h
  · exact h

/-- What the release of waits and every stretch of a program preserve holds after the second half
of a frame. -/
theorem serve_preserves (cfg : Settings α)
    (hrelease : ∀ s, P s → P { s with clock := s.clock.release })
    (hbegin : ∀ commands, Preserves P (Execution.begin cfg commands))
    (hresume : ∀ rest, Preserves P (Execution.resume cfg rest)) {s : Simulation α}
    (h : P s.scene) : P (s.serve cfg).scene :=
  serve_preserves_of cfg hrelease (fun commands _ => hbegin commands) hresume h

end Preserved

omit [Scalar α] in
theorem running_congr {s t : Simulation α} (h : t.job = s.job) : t.running = s.running := by
  unfold running
  rw [h]

omit [Scalar α] in
theorem not_waiting_of_not_running {s : Simulation α} (h : s.running = false) (ticket : Nat)
    (rest : Execution α) : s.job ≠ some (.waiting ticket rest) := by
  intro hjob
  unfold running at h
  rw [hjob] at h
  exact Bool.noConfusion h

omit [Scalar α] in
theorem not_failed_of_running {s : Simulation α} (h : s.running = true) (fault : Fault α) :
    s.job ≠ some (.failed fault) := by
  intro hjob
  unfold running at h
  rw [hjob] at h
  exact Bool.false_ne_true h

theorem runReady_of_not_running (cfg : Settings α) {s : Simulation α} (h : s.running = false) :
    s.runReady cfg = s := by
  unfold running at h
  unfold runReady
  split
  · next hjob =>
    rw [hjob] at h
    exact Bool.noConfusion h
  · next hjob =>
    rw [hjob] at h
    exact Bool.noConfusion h
  · rfl

/-- Without a program that runs, releases change nothing but the waits. -/
theorem settle_of_not_running (cfg : Settings α) {s : Simulation α} (h : s.running = false)
    (fuel : Nat) :
    (s.settle cfg fuel).scene.station = s.scene.station ∧ (s.settle cfg fuel).world = s.world ∧
      (s.settle cfg fuel).job = s.job := by
  refine settle_of_wake (P := fun t => t.scene.station = s.scene.station ∧ t.world = s.world ∧
    t.job = s.job) (fun t ht => ?_) _ ⟨rfl, rfl, rfl⟩
  rw [wake_of_not_waiting cfg fun ticket rest =>
    ht.2.2 ▸ not_waiting_of_not_running h ticket rest]
  exact ht

/-- Without a program that runs nothing happens in the second half of a frame but that waits are
released. -/
theorem serve_of_not_running (cfg : Settings α) {s : Simulation α} (h : s.running = false) :
    (s.serve cfg).scene.station = s.scene.station ∧ (s.serve cfg).world = s.world ∧
      (s.serve cfg).job = s.job := by
  unfold serve
  rw [runReady_of_not_running cfg h]
  exact settle_of_not_running cfg h _

theorem serve_of_none (cfg : Settings α) {s : Simulation α} (h : s.job = none) :
    (s.serve cfg).scene.station = s.scene.station ∧ (s.serve cfg).world = s.world ∧
      (s.serve cfg).job = none := by
  have hidle : s.running = false := by
    unfold running
    rw [h]
    rfl
  exact h ▸ serve_of_not_running cfg hidle

/-- A frame leaves a program that does not run any more as it is. -/
theorem job_frame_of_not_running (cfg : Settings α) (dt : α) {s : Simulation α}
    (h : s.running = false) :
    (final (frame cfg dt s)).job = s.job := by
  cases hpass : pass cfg dt s with
  | error fault t =>
    rw [frame_of_pass_error hpass]
    exact (passed_of_pass_error hpass).job
  | ok _ t =>
    have hjob := (passed_of_pass hpass).job
    rw [frame_of_pass hpass]
    exact (serve_of_not_running cfg ((running_congr hjob).trans h)).2.2.trans hjob

end ArmRover.Simulation
