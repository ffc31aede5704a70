import ArmRover.Proofs.Map.Drawing
import ArmRover.Proofs.Station.Distance
import ArmRover.Proofs.Station.Resting

/-!
# One picture of the world

Two sensors with intervals of their own are asked in every call, and each looks only if it is due.
From the times of the calls alone one can tell in which of them a sensor looked. What is stored of
the distance and of the scan is what was to be seen in the last such call, and the map holds every
scan once.

* `Sensors.Look` — a call, `Sensors.refreshes` — the calls in which a sensor is refreshed,
  `Sensors.refreshes_spaced`, `Sensors.exists_last_refresh` — how far they are apart, and how long
  ago the last one was.
* `Sensors.scanned_of_refresh` — what one call does with the scan and the map.
* `Sensors.Seen` — calls one after the other, `Sensors.Pictured` — what is stored after them,
  `Sensors.pictured_of_seen` — every call keeps it.
* `Sensors.one_picture` — the distance, the scan and the map after any number of calls.
-/

namespace ArmRover

open ArmRover.Action

variable {α : Type} [Scalar α]

/-- What the lidar has stored, and when it scanned last. -/
def Station.chart (s : Station α) : List (Reading α) × Option (Grid α) × Option α :=
  (s.rover.scan, s.map, s.gates.scan)

namespace Sensors

/-! ### The calls in which a sensor is refreshed -/

/-- A call of the sensors: the world, the time, and the rover as it stands. -/
structure Look (α : Type) where
  world : World α
  now : α
  rover : Rover α

/-- The refreshes of a sensor with an interval, after one more call: it is refreshed unless its last
refresh was less than its interval ago. -/
def refreshing (interval : α) (done : List (Look α)) (look : Look α) : List (Look α) :=
  if done.getLast?.any fun last => look.now - last.now < interval then done else done ++ [look]

/-- The calls in which a sensor with an interval is refreshed: the first one, and then each that
comes an interval or more after the last refresh before it. -/
def refreshes (interval : α) (looks : List (Look α)) : List (Look α) :=
  looks.foldl (refreshing interval) []

theorem refreshes_append (interval : α) (looks : List (Look α)) (look : Look α) :
    refreshes interval (looks ++ [look]) =
      refreshing interval (refreshes interval looks) look := by
  unfold refreshes
  rw [List.foldl_append]
  rfl

/-! ### One call -/

section

variable {senses : Settings.Senses α} {mapping : Settings.Mapping α} {world : World α} {now : α}
  {s t : Station α}

/-- The scan that the lidar takes in a call. -/
def Look.Scans (senses : Settings.Senses α) (look : Look α) (scan : List (Reading α)) : Prop :=
  look.world.scan? look.rover.ground (.number senses.rays) senses.range = .ok scan

/-- The survey that goes into the map: the scan of a call from where the rover stands. -/
structure Look.Surveys (senses : Settings.Senses α) (mapping : Settings.Mapping α) (look : Look α)
    (survey : Survey α) : Prop where
  readings : look.Scans senses survey.readings
  origin : survey.origin = look.rover.ground
  range : survey.range = senses.range
  ratio : survey.ratio = mapping.hitRatio

/-- A call without a fault leaves the scan and the map alone while the lidar is fresh, and otherwise
scans, and fuses the scan into the map. The distance sensor does not matter for that. -/
theorem scanned_of_refresh (h : refresh senses mapping world now s = .ok () t)
    (hactive : s.active = .rover) :
    (fresh? s.gates.scan now senses.scanInterval = .ok true ∧ t.chart = s.chart) ∨
      (fresh? s.gates.scan now senses.scanInterval = .ok false ∧ t.gates.scan = some now ∧
        (Look.mk world now s.rover).Scans senses t.rover.scan ∧
        Grid.fuseInto t.rover.scan s.rover.ground (.number mapping.side) (.number mapping.density)
          senses.range mapping.hitRatio s.map = .ok () t.map) := by
  unfold refresh at h
  rw [run_get_bind, if_neg (not_not_intro hactive)] at h
  obtain ⟨reading, u, hlook, h⟩ := exists_of_bind_eq_ok h
  have hkept : u.chart = s.chart ∧ u.rover.ground = s.rover.ground := by
    have hkeeps : Preserves (fun u : Station α =>
        u.chart = s.chart ∧ u.rover.ground = s.rover.ground) (lookAhead senses world now) :=
      preserves_lookAhead (fun _ hu => hu) fun _ _ hu => hu
    exact hkeeps.of_ok hlook ⟨rfl, rfl⟩
  obtain ⟨hchart, hground⟩ := hkept
  obtain ⟨-, hrest⟩ := Prod.mk.inj hchart
  obtain ⟨hmap, hgate⟩ := Prod.mk.inj hrest
  rw [run_get_bind] at h
  obtain ⟨fresh, u', hrun, h⟩ := exists_of_bind_eq_ok h
  obtain ⟨hfresh, rfl⟩ := of_lift_eq_ok hrun
  rw [hgate] at hfresh
  cases fresh with
  | true =>
    cases h
    exact .inl ⟨hfresh, hchart⟩
  | false =>
    obtain ⟨_, v, hopen, h⟩ := exists_of_bind_eq_ok h
    cases hopen
    unfold scanAround at h
    rw [run_get_bind] at h
    obtain ⟨scan, v, hrun, h⟩ := exists_of_bind_eq_ok h
    obtain ⟨hscan, rfl⟩ := of_lift_eq_ok hrun
    obtain ⟨_, v, hstore, h⟩ := exists_of_bind_eq_ok h
    cases hstore
    have hfused := h
    unfold Action.on at hfused
    dsimp only at hscan hfused
    rw [hground, hmap] at hfused
    rw [hground] at hscan
    split at hfused
    · next map hfuse =>
      cases hfused
      exact .inr ⟨hfresh, rfl, hscan, hfuse⟩
    · cases hfused

/-! ### Many calls -/

/-- Since the sensors were asked last, the rover is the active robot and nobody has written what
they store. Anything else may have changed. -/
structure Keeps (before arrival : Station α) : Prop where
  active : arrival.active = .rover
  distance : arrival.rover.distance = before.rover.distance
  chart : arrival.chart = before.chart
  gate : arrival.gates.distance = before.gates.distance

/-- The stations after calls that all have come to their end, the first of them with sensors that
have not been refreshed since they were built or reset, and without a map. -/
inductive Seen (senses : Settings.Senses α) (mapping : Settings.Mapping α) :
    List (Look α) → Station α → Prop where
  | start {s : Station α} : s.gates = .open → s.map = none → Seen senses mapping [] s
  | call {looks : List (Look α)} {s arrival t : Station α} (world : World α) (now : α) :
      Seen senses mapping looks s → Keeps s arrival →
      refresh senses mapping world now arrival = .ok () t →
      Seen senses mapping (looks ++ [⟨world, now, arrival.rover⟩]) t

end

/-! ### Exact times -/

section

variable {senses : Settings.Senses ℝ} {mapping : Settings.Mapping ℝ} {looks : List (Look ℝ)}
  {look : Look ℝ} {interval : ℝ}

/-- A sensor is due in a call if its last refresh is not less than its interval ago. -/
def DueSince (interval : ℝ) (done : List (Look ℝ)) (look : Look ℝ) : Prop :=
  ∀ last ∈ done.getLast?, interval ≤ look.now - last.now

theorem not_dueSince_iff {done : List (Look ℝ)} :
    ¬ DueSince interval done look ↔
      ∃ last, done.getLast? = some last ∧ look.now - last.now < interval := by
  simp [DueSince]

theorem refreshing_of_due {done : List (Look ℝ)} (h : DueSince interval done look) :
    refreshing interval done look = done ++ [look] := by
  refine if_neg fun hfresh => ?_
  obtain ⟨last, hlast, hless⟩ := (Option.any_eq_true _ _).mp hfresh
  exact not_dueSince_iff.mpr ⟨last, hlast, of_decide_eq_true hless⟩ h

theorem refreshing_of_not_due {done : List (Look ℝ)} (h : ¬ DueSince interval done look) :
    refreshing interval done look = done := by
  obtain ⟨last, hlast, hless⟩ := not_dueSince_iff.mp h
  exact if_pos ((Option.any_eq_true _ _).mpr ⟨last, hlast, decide_eq_true hless⟩)

/-- Two refreshes of one sensor are never closer than its interval. -/
theorem refreshes_spaced (h : 0 < interval) (looks : List (Look ℝ)) :
    (refreshes interval looks).Pairwise fun a b => interval ≤ b.now - a.now := by
  induction looks using List.reverseRecOn with
  | nil => exact .nil
  | append_singleton looks look ih =>
    rw [refreshes_append]
    by_cases hdue : DueSince interval (refreshes interval looks) look
    · rw [refreshing_of_due hdue]
      refine List.pairwise_append.mpr ⟨ih, List.pairwise_singleton _ _, fun a ha b hb => ?_⟩
      rw [List.mem_singleton.mp hb]
      -- the last refresh is an interval ago, and the others were before it
      rcases List.eq_nil_or_concat' (refreshes interval looks) with hnone | ⟨first, last, hlast⟩
      · rw [hnone] at ha
        cases ha
      · rw [hlast] at ha hdue ih
        have hspaced := hdue last (by rw [List.getLast?_concat]; rfl)
        rcases List.mem_append.mp ha with ha | ha
        · have hbefore := (List.pairwise_append.mp ih).2.2 a ha last (List.mem_singleton_self _)
          linarith
        · rw [List.mem_singleton.mp ha]
          exact hspaced
    · rw [refreshing_of_not_due hdue]
      exact ih

/-- The last refresh of a sensor was less than its interval ago. -/
theorem exists_last_refresh (h : 0 < interval) (looks : List (Look ℝ)) (look : Look ℝ) :
    ∃ last, (refreshes interval (looks ++ [look])).getLast? = some last ∧
      look.now - last.now < interval := by
  rw [refreshes_append]
  by_cases hdue : DueSince interval (refreshes interval looks) look
  · rw [refreshing_of_due hdue]
    refine ⟨look, List.getLast?_concat, ?_⟩
    rw [sub_self]
    exact h
  · rw [refreshing_of_not_due hdue]
    exact not_dueSince_iff.mp hdue

/-- A gate that tells of the last refresh tells whether the next call is one. -/
theorem refreshes_of_fresh? {every : Value ℝ} (hnumber : every.IsNumber) {fresh : Bool}
    (h : fresh? ((refreshes every.amount looks).getLast?.map Look.now) look.now every =
      .ok fresh) :
    refreshes every.amount (looks ++ [look]) =
      if fresh then refreshes every.amount looks else refreshes every.amount looks ++ [look] := by
  have hfresh : fresh = true ↔ ¬ DueSince every.amount (refreshes every.amount looks) look := by
    obtain ⟨n, hn⟩ := hnumber
    rw [not_dueSince_iff, Value.amount_of_number hn]
    rw [Value.amount_of_number hn] at h
    cases hlast : (refreshes n.value looks).getLast? with
    | none =>
      rw [hlast] at h
      obtain rfl := Except.ok.inj h
      simp
    | some last =>
      rw [hlast] at h
      unfold fresh? at h
      dsimp only [Option.map_some] at h
      rw [hn] at h
      obtain rfl := Except.ok.inj h
      rw [Number.above_real, decide_eq_true_eq]
      simp
  rw [refreshes_append]
  cases fresh with
  | true => exact refreshing_of_not_due (hfresh.mp rfl)
  | false => exact refreshing_of_due (not_not.mp (hfresh.not.mp Bool.false_ne_true))

/-! ### What is stored after many calls -/

/-- The gate of a sensor tells of its last refresh, and something holds of that. -/
structure LastOf (done : List (Look ℝ)) (gate : Option ℝ) (P : Look ℝ → Prop) : Prop where
  gate : gate = done.getLast?.map Look.now
  stored : ∀ last ∈ done.getLast?, P last

/-- In a call a sensor keeps what it has stored while it is fresh, and otherwise stores what it sees
now. -/
theorem LastOf.call {every : Value ℝ} (hnumber : every.IsNumber) {gate gate' : Option ℝ}
    {P P' : Look ℝ → Prop} (h : LastOf (refreshes every.amount looks) gate P)
    (hcall : (fresh? gate look.now every = .ok true ∧ gate' = gate ∧ ∀ last, P last → P' last) ∨
      (fresh? gate look.now every = .ok false ∧ gate' = some look.now ∧ P' look)) :
    LastOf (refreshes every.amount (looks ++ [look])) gate' P' := by
  obtain ⟨rfl, hstored⟩ := h
  rcases hcall with ⟨hfresh, rfl, hkept⟩ | ⟨hstale, rfl, hnew⟩
  · rw [refreshes_of_fresh? hnumber hfresh]
    exact ⟨rfl, fun last hlast => hkept last (hstored last hlast)⟩
  · rw [refreshes_of_fresh? hnumber hstale]
    refine ⟨congrArg (Option.map Look.now) List.getLast?_concat.symm, fun last hlast => ?_⟩
    exact Option.some.inj (List.getLast?_concat.symm.trans hlast) ▸ hnew

/-- What the sensors have stored is what they saw in the last calls in which they looked, and the
map is drawn from the scans of all of them. -/
structure Pictured (senses : Settings.Senses ℝ) (mapping : Settings.Mapping ℝ)
    (looks : List (Look ℝ)) (s : Station ℝ) : Prop where
  distance : LastOf (refreshes (Value.real senses.interval).amount looks) s.gates.distance
    fun last => Measured senses last.world last.rover s.rover.distance
  scan : LastOf (refreshes senses.scanInterval.amount looks) s.gates.scan
    fun last => last.Scans senses s.rover.scan
  map : ∃ surveys, List.Forall₂ (Look.Surveys senses mapping)
      (refreshes senses.scanInterval.amount looks) surveys ∧
    Grid.Draws (.number mapping.side) (.number mapping.density) surveys s.map

/-- One more call. -/
theorem Pictured.call {s arrival t : Station ℝ} {world : World ℝ} {now : ℝ}
    (h : Pictured senses mapping looks s) (hnumber : senses.scanInterval.IsNumber)
    (hkeeps : Keeps s arrival) (hrun : refresh senses mapping world now arrival = .ok () t) :
    Pictured senses mapping (looks ++ [⟨world, now, arrival.rover⟩]) t := by
  obtain ⟨hscan, hrest⟩ := Prod.mk.inj hkeeps.chart
  obtain ⟨hmap, hgate⟩ := Prod.mk.inj hrest
  have hscanned := scanned_of_refresh hrun hkeeps.active
  rw [hgate, hmap] at hscanned
  refine ⟨?_, ?_, ?_⟩
  · refine h.distance.call ⟨_, rfl⟩ ?_
    have hplace := (preserves_place_refresh _).of_ok hrun rfl
    rw [← hkeeps.gate]
    rcases outlook_of_refresh hrun hkeeps.active with ⟨hfresh, houtlook⟩ | ⟨hstale, hgate', hnew⟩
    · obtain ⟨-, hstored⟩ := Prod.mk.inj houtlook
      obtain ⟨hdistance, hgate'⟩ := Prod.mk.inj hstored
      refine .inl ⟨hfresh, hgate', fun last hlast => ?_⟩
      rw [hdistance, hkeeps.distance]
      exact hlast
    · exact .inr ⟨hstale, hgate', hnew.congr hplace.symm⟩
  · refine h.scan.call hnumber ?_
    rcases hscanned with ⟨hfresh, hchart⟩ | ⟨hstale, hgate', hnew, -⟩
    · obtain ⟨hscan', hrest'⟩ := Prod.mk.inj hchart
      refine .inl ⟨hfresh, (Prod.mk.inj hrest').2.trans hgate, fun last hlast => ?_⟩
      rw [hscan', hscan]
      exact hlast
    · exact .inr ⟨hstale, hgate', hnew⟩
  · obtain ⟨surveys, hsurveys, hdraws⟩ := h.map
    rw [h.scan.gate] at hscanned
    rcases hscanned with ⟨hfresh, hchart⟩ | ⟨hstale, hgate', hnew, hfuse⟩
    · rw [refreshes_of_fresh? hnumber hfresh]
      refine ⟨surveys, hsurveys, ?_⟩
      rw [(Prod.mk.inj (Prod.mk.inj hchart).2).1, hmap]
      exact hdraws
    · rw [refreshes_of_fresh? hnumber hstale]
      let survey : Survey ℝ := ⟨t.rover.scan, arrival.rover.ground, senses.range, mapping.hitRatio⟩
      refine ⟨surveys ++ [survey], ?_, Grid.draws_fuseInto (s := survey) hdraws hfuse⟩
      exact List.rel_append hsurveys (.cons ⟨hnew, rfl, rfl, rfl⟩ .nil)

theorem pictured_of_seen (hnumber : senses.scanInterval.IsNumber) {s : Station ℝ}
    (h : Seen senses mapping looks s) : Pictured senses mapping looks s := by
  induction h with
  | start hgates hmap =>
    refine ⟨⟨congrArg Gates.distance hgates, nofun⟩, ⟨congrArg Gates.scan hgates, nofun⟩, ?_⟩
    exact ⟨[], .nil, hmap⟩
  | call world now _ hkeeps hrun ih => exact ih.call hnumber hkeeps hrun

end

end Sensors

end ArmRover
