import ArmRover.Proofs.Rover.Telemetry

/-!
# A rover that coasts

While nobody sets the velocities of the rover, they only decay, and it makes no difference into how
many stretches a time is split: friction takes away what it takes away from the whole time at once,
a velocity that became zero on the way would also be zero at the end, and so would one that the
watchdog stopped on the way.

* `Drive.updates` — a time that is split into stretches.
* `Drive.remaining_remaining` — two stretches, `Drive.remaining_of_updates` — any number.
* `Drive.Leg.Calmed` — a stretch that makes nothing faster, `Drive.decay_independent_of_split` — the
  decay, with the stretches between.
-/

namespace ArmRover.Drive

open ArmRover.Action

variable {driving : Settings.Driving ℝ} {legs : List (Leg ℝ)} {s t : Station ℝ}

/-- Stretches of time, one after the other, from now on. -/
def updates (now : ℝ) : List ℝ → List (Event ℝ)
  | [] => []
  | dt :: rest => .update dt (now + dt) :: updates (now + dt) rest

theorem nonneg_of_mem_updates {dts : List ℝ} (hdts : ∀ dt ∈ dts, 0 ≤ dt) (now : ℝ) :
    ∀ dt later, .update dt later ∈ updates now dts → 0 ≤ dt := by
  induction dts generalizing now with
  | nil => exact fun _ _ hmem => absurd hmem List.not_mem_nil
  | cons dt₀ rest ih =>
    intro dt later hmem
    rcases List.mem_cons.mp hmem with heq | hmem
    · cases heq
      exact hdts dt₀ List.mem_cons_self
    · exact ih (fun dt hdt => hdts dt (List.mem_cons_of_mem _ hdt)) (now + dt₀) dt later hmem

/-- What is left after two stretches of time is what is left after both at once: if the watchdog has
run out after the first one, it has run out after both. -/
theorem remaining_remaining (h : driving.Damped) {r r' : Rover ℝ}
    (hlast : r'.lastCommand = r.lastCommand) {a b now later : ℝ} (ha : 0 ≤ a) (hb : 0 ≤ b)
    (hlater : now ≤ later) (v : ℝ) :
    remaining driving r' b later (remaining driving r a now v) =
      remaining driving r (a + b) later v := by
  by_cases hend : Stale driving r later
  · rw [remaining_of_stale hend, remaining_of_stale ((Stale.congr hlast).mpr hend)]
  · have hnow : ¬ Stale driving r now := fun hstale => hend (hstale.mono hlater)
    rw [remaining_of_not_stale hnow, remaining_of_not_stale hend,
      remaining_of_not_stale (mt (Stale.congr hlast).mp hend), kept_kept h ha hb]

/-- After stretches of time, at least one, the velocities are what is left of them after the whole
time. -/
theorem remaining_of_updates (h : driving.Damped) {dt : ℝ} {dts : List ℝ}
    (hdts : ∀ d ∈ dt :: dts, 0 ≤ d) {now : ℝ} (hs : s.Roving driving)
    (hrun : run driving (updates now (dt :: dts)) s = .ok legs t) :
    let total := (dt :: dts).sum
    t.rover.vx.value = remaining driving s.rover total (now + total) s.rover.vx.value ∧
      t.rover.wz.value = remaining driving s.rover total (now + total) s.rover.wz.value := by
  induction dts generalizing s now dt legs with
  | nil =>
    obtain ⟨u, later, hadvance, hlater, -⟩ := of_run_update hrun
    obtain ⟨hadvanced, -⟩ := roving_of_advance h (hdts dt List.mem_cons_self) hs hadvance
    cases hlater
    simp only [List.sum_cons, List.sum_nil, add_zero]
    exact ⟨hadvanced.vx, hadvanced.wz⟩
  | cons dt' dts ih =>
    have hdt := hdts dt List.mem_cons_self
    have hrest : ∀ d ∈ dt' :: dts, 0 ≤ d := fun d hd => hdts d (List.mem_cons_of_mem _ hd)
    have hsum : 0 ≤ (dt' :: dts).sum := List.sum_nonneg hrest
    have hstep : now + dt ≤ now + dt + (dt' :: dts).sum := by linarith
    obtain ⟨u, later, hadvance, hlater, -⟩ := of_run_update hrun
    obtain ⟨hadvanced, hu⟩ := roving_of_advance h hdt hs hadvance
    obtain ⟨hvx, hwz⟩ := ih hrest hu hlater
    dsimp only
    rw [List.sum_cons (a := dt), ← add_assoc]
    constructor
    · rw [hvx, hadvanced.vx, remaining_remaining h hadvanced.lastCommand hdt hsum hstep]
    · rw [hwz, hadvanced.wz, remaining_remaining h hadvanced.lastCommand hdt hsum hstep]

/-- From one end of a stretch of time to the other no velocity grows or turns round. -/
structure Leg.Calmed (l : Leg ℝ) : Prop where
  vx : |l.finish.vx.value| ≤ |l.start.vx.value|
  wz : |l.finish.wz.value| ≤ |l.start.wz.value|
  ahead : 0 ≤ l.start.vx.value * l.finish.vx.value
  turning : 0 ≤ l.start.wz.value * l.finish.wz.value

theorem calmed_of_updates (h : driving.Damped) {dts : List ℝ} (hdts : ∀ dt ∈ dts, 0 ≤ dt) {now : ℝ}
    (hs : s.Roving driving) (hrun : run driving (updates now dts) s = .ok legs t) :
    ∀ l ∈ legs, l.Calmed := by
  induction dts generalizing s now legs with
  | nil =>
    cases hrun
    exact List.forall_mem_nil _
  | cons dt rest ih =>
    have hdt := hdts dt List.mem_cons_self
    obtain ⟨u, later, hadvance, hlater, rfl⟩ := of_run_update hrun
    obtain ⟨hadvanced, hu⟩ := roving_of_advance h hdt hs hadvance
    have hrest := ih (fun d hd => hdts d (List.mem_cons_of_mem _ hd)) hu hlater
    refine List.forall_mem_cons.mpr ⟨⟨?_, ?_, ?_, ?_⟩, hrest⟩
    · rw [hadvanced.vx]
      exact abs_remaining_le h hdt s.rover (now + dt) _
    · rw [hadvanced.wz]
      exact abs_remaining_le h hdt s.rover (now + dt) _
    · rw [hadvanced.vx]
      exact mul_remaining_nonneg h hdt s.rover (now + dt) _
    · rw [hadvanced.wz]
      exact mul_remaining_nonneg h hdt s.rover (now + dt) _

/-- However a time is split into stretches, at least one, the velocities at its end only depend on
the whole time: they are zero if a command was given and the watchdog has run out by then, and
otherwise what friction leaves, or zero where that is below the least speed. On the way no velocity
grows or turns round. Nothing fails if the settings that are read are numbers. -/
theorem decay_independent_of_split (h : driving.Damped) {dts : List ℝ} (hsome : dts ≠ [])
    (hdts : ∀ dt ∈ dts, 0 ≤ dt) (now : ℝ) (hs : s.Roving driving) :
    (driving.leastSpeed.IsNumber → driving.watchdog.IsNumber → driving.historyTime.IsNumber →
        s.rover.height.IsNumber → ∃ legs t, run driving (updates now dts) s = .ok legs t) ∧
      ∀ legs t, run driving (updates now dts) s = .ok legs t →
        t.rover.vx.value =
            remaining driving s.rover dts.sum (now + dts.sum) s.rover.vx.value ∧
          t.rover.wz.value =
            remaining driving s.rover dts.sum (now + dts.sum) s.rover.wz.value ∧
          ∀ l ∈ legs, l.Calmed := by
  constructor
  · intro hleast hwatchdog hwindow
    exact exists_run h hleast hwatchdog hwindow (nonneg_of_mem_updates hdts now) hs
  · intro legs t hrun
    obtain ⟨dt, rest, rfl⟩ := List.exists_cons_of_ne_nil hsome
    obtain ⟨hvx, hwz⟩ := remaining_of_updates h hdts hs hrun
    exact ⟨hvx, hwz, calmed_of_updates h hdts hs hrun⟩

/-- Three periods of the reference rate, in stretches of one period, none and two. -/
theorem decay_independent_of_split_three_periods :
    let driving : Settings.Driving ℝ := Settings.standard.driving
    let home : Rover ℝ := .home driving Settings.standard.senses
    let s : Station ℝ := { Station.new Settings.standard.toRig with
      active := .rover, rover := { home with vx := .real 1 } }
    ∃ legs t, run driving (updates 0 [1 / 60, 0, 1 / 30]) s = .ok legs t ∧
      t.rover.vx.value = (19 / 20) ^ 3 ∧ ∀ l ∈ legs, l.Calmed := by
  intro driving home s
  have hfriction : driving.friction.amount = 19 / 20 :=
    (Value.amount_decimal 95 2).trans (by norm_num)
  have hrate : driving.frictionRate.amount = 60 := by
    rw [Value.amount_of_number (n := .whole 60) rfl]
    exact Int.cast_ofNat 60
  have hleast : driving.leastSpeed.amount = 1 / 100 :=
    (Value.amount_decimal 1 2).trans (by norm_num)
  have hs : s.Roving driving := by
    have hhome : home.Within driving := Rover.within_home _ Settings.damped_standard.toBounded
    refine ⟨rfl, ⟨?_, hhome.wz⟩⟩
    show |(1 : ℝ)| ≤ (Settings.standard : Settings ℝ).driving.maxLinear.amount
    rw [Settings.maxLinear_standard]
    norm_num
  have hdts : ∀ dt ∈ [1 / 60, 0, 1 / 30], (0 : ℝ) ≤ dt := by
    intro dt hdt
    simp only [List.mem_cons, List.not_mem_nil, or_false] at hdt
    rcases hdt with rfl | rfl | rfl <;> norm_num
  obtain ⟨hanswers, hall⟩ := decay_independent_of_split Settings.damped_standard
    (List.cons_ne_nil _ _) hdts 0 hs
  obtain ⟨legs, t, hrun⟩ := hanswers ⟨_, rfl⟩ ⟨_, rfl⟩ ⟨_, rfl⟩ ⟨_, rfl⟩
  obtain ⟨hvx, -, hcalmed⟩ := hall legs t hrun
  have hstale : ¬ Stale driving s.rover (0 + [1 / 60, 0, 1 / 30].sum) :=
    fun ⟨_, hlast, _⟩ => nomatch hlast
  have hexponent : [1 / 60, 0, 1 / 30].sum * driving.frictionRate.amount = ((3 : ℕ) : ℝ) := by
    rw [hrate]
    norm_num
  refine ⟨legs, t, hrun, ?_, hcalmed⟩
  rw [hvx, remaining_of_not_stale hstale]
  unfold kept
  dsimp only
  rw [hexponent, Real.rpow_natCast, hfriction, hleast]
  show (if |(1 : ℝ) * (19 / 20) ^ 3| < 1 / 100 then (0 : ℝ) else 1 * (19 / 20) ^ 3) = _
  norm_num

end ArmRover.Drive
