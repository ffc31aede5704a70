import ArmRover.Proofs.Rover.Telemetry

/-!
# The history is the window

Samples leave the history only from its front, up to the first one that is recent enough. As long
as time does not run backwards, the samples stand in the order of their times, so that nothing but
those of the window is left.

* `Sample.fresh` — the samples of a window, `Sample.dropWhile_eq_fresh` — dropping from the front.
* `Station.Logged` — which samples were recorded so far, whatever else happened to the station,
  `Station.Logged.history` — what is left of them, `Station.history_is_window` — one more.
* `Drive.logged_of_run` — the samples of a rover that is driven, `Drive.history_of_run`.
-/

namespace ArmRover

open ArmRover.Action

/-! ### Samples of a window -/

namespace Sample

variable {width before now : ℝ} {samples : List (Sample ℝ)} {sample : Sample ℝ}

/-- The samples that are not older than the window, in their order. -/
noncomputable def fresh (width now : ℝ) (samples : List (Sample ℝ)) : List (Sample ℝ) :=
  samples.filter fun sample => decide (now - width ≤ sample.time)

/-- Samples stand in the order of their times. -/
def Ordered (samples : List (Sample ℝ)) : Prop :=
  samples.Pairwise fun a b => a.time ≤ b.time

theorem Ordered.concat (h : Ordered samples) (hlast : ∀ a ∈ samples, a.time ≤ sample.time) :
    Ordered (samples ++ [sample]) :=
  List.pairwise_append.mpr ⟨h, List.pairwise_singleton _ _, fun a ha _ hb =>
    List.mem_singleton.mp hb ▸ hlast a ha⟩

/-- Of samples in order, all that are too old stand at the front. -/
theorem dropWhile_eq_fresh (h : Ordered samples) (width now : ℝ) :
    samples.dropWhile (fun sample => decide (sample.time < now - width)) =
      fresh width now samples := by
  induction samples with
  | nil => rfl
  | cons a rest ih =>
    obtain ⟨hfirst, hrest⟩ := List.pairwise_cons.mp h
    unfold fresh
    by_cases hold : a.time < now - width
    case pos =>
      have hnot : ¬ now - width ≤ a.time := not_le.mpr hold
      rw [List.dropWhile_cons_of_pos (by rwa [decide_eq_true_eq]),
        List.filter_cons_of_neg (by rwa [decide_eq_true_eq])]
      exact ih hrest
    case neg =>
      have hall : ∀ b ∈ a :: rest, now - width ≤ b.time :=
        List.forall_mem_cons.mpr
          ⟨not_lt.mp hold, fun b hb => (not_lt.mp hold).trans (hfirst b hb)⟩
      rw [List.dropWhile_cons_of_neg (by rwa [decide_eq_true_eq]),
        List.filter_eq_self.mpr fun b hb => decide_eq_true (hall b hb)]

/-- What is too old stays so. -/
theorem fresh_fresh (hle : before ≤ now) :
    fresh width now (fresh width before samples) = fresh width now samples := by
  unfold fresh
  rw [List.filter_filter]
  refine List.filter_congr fun a _ => ?_
  rw [← Bool.decide_and, decide_eq_decide]
  exact and_iff_left_of_imp fun h => (sub_le_sub_right hle width).trans h

/-- A sample of this moment is in the window. -/
theorem fresh_concat (hwidth : 0 ≤ width) (r : Rover ℝ) (now : ℝ) (samples : List (Sample ℝ)) :
    fresh width now (samples ++ [r.sample now]) = fresh width now samples ++ [r.sample now] := by
  have hfresh : now - width ≤ (r.sample now).time := sub_le_self now hwidth
  unfold fresh
  rw [List.filter_append, List.filter_cons_of_pos (by rwa [decide_eq_true_eq]), List.filter_nil]

end Sample

/-! ### One sample after the other -/

namespace Station

variable {window : Value ℝ} {before now : ℝ} {samples : List (Sample ℝ)} {s t : Station ℝ}

/-- The samples that were recorded since the history was empty, the last of them at the given time.
In between anything can happen that leaves the history as it is. -/
inductive Logged (window : Value ℝ) : ℝ → List (Sample ℝ) → Station ℝ → Prop
  | start {s : Station ℝ} (now : ℝ) (hempty : s.rover.history = []) : Logged window now [] s
  | change {now : ℝ} {samples : List (Sample ℝ)} {s t : Station ℝ}
      (hlogged : Logged window now samples s) (hsame : t.rover.history = s.rover.history) :
      Logged window now samples t
  | record {before now : ℝ} {samples : List (Sample ℝ)} {s t : Station ℝ}
      (hlogged : Logged window before samples s) (hle : before ≤ now)
      (hrun : s.addSample now window = .ok () t) :
      Logged window now (samples ++ [s.rover.sample now]) t

/-- No sample is older than the ones before it, and what is left are those of the window. -/
structure Windowed (width now : ℝ) (samples : List (Sample ℝ)) (s : Station ℝ) : Prop where
  ordered : Sample.Ordered samples
  past : ∀ sample ∈ samples, sample.time ≤ now
  history : s.rover.history = Sample.fresh width now samples

theorem rover_of_addSample (hrun : addSample now window s = .ok () t) :
    t.rover = { s.rover with
      history := (s.rover.history ++ [s.rover.sample now]).dropWhile
        (fun sample => decide (sample.time < now - window.amount)) } := by
  rcases addSample_cases now window s with hok | ⟨-, fault, hfault⟩
  · cases hok.symm.trans hrun
    rfl
  · cases hfault.symm.trans hrun

/-- The samples that are too old for the window are those that were so before, and those that have
become so, which stand at the front. -/
theorem Windowed.record (h : Windowed window.amount before samples s) (hwidth : 0 ≤ window.amount)
    (hle : before ≤ now) (hrun : addSample now window s = .ok () t) :
    Windowed window.amount now (samples ++ [s.rover.sample now]) t := by
  have hpast : ∀ sample ∈ samples, sample.time ≤ now := fun sample hsample =>
    (h.past sample hsample).trans hle
  have hkept : Sample.Ordered (s.rover.history ++ [s.rover.sample now]) := by
    rw [h.history]
    exact Sample.Ordered.concat (h.ordered.sublist List.filter_sublist) fun a ha =>
      hpast a (List.mem_of_mem_filter ha)
  refine ⟨h.ordered.concat hpast, ?_, ?_⟩
  · exact List.forall_mem_append.mpr ⟨hpast, List.forall_mem_singleton.mpr (le_refl now)⟩
  · calc t.rover.history
      _ = Sample.fresh window.amount now (s.rover.history ++ [s.rover.sample now]) := by
        rw [rover_of_addSample hrun]
        exact Sample.dropWhile_eq_fresh hkept _ _
      _ = Sample.fresh window.amount now samples ++ [s.rover.sample now] := by
        rw [Sample.fresh_concat hwidth, h.history, Sample.fresh_fresh hle]
      _ = Sample.fresh window.amount now (samples ++ [s.rover.sample now]) :=
        (Sample.fresh_concat hwidth _ _ _).symm

theorem Logged.windowed (h : Logged window now samples s) (hwidth : 0 ≤ window.amount) :
    Windowed window.amount now samples s := by
  induction h with
  | start now hempty => exact ⟨List.Pairwise.nil, List.forall_mem_nil _, hempty⟩
  | change hlogged hsame ih => exact ⟨ih.ordered, ih.past, hsame.trans ih.history⟩
  | record hlogged hle hrun ih => exact ih.record hwidth hle hrun

end Station

/-! ### A rover that is driven -/

namespace Drive

variable {driving : Settings.Driving ℝ} {events : List (Event ℝ)} {legs : List (Leg ℝ)}
  {before now dt : ℝ} {samples : List (Sample ℝ)} {s t : Station ℝ}

/-- What the rover does in a stretch of time before it records a sample leaves the history alone. -/
theorem exists_addSample_of_advance (h : driving.Damped) (hdt : 0 ≤ dt) (hs : s.Roving driving)
    (hrun : advance driving dt now s = .ok () t) :
    ∃ u, u.rover.history = s.rover.history ∧
      Station.addSample now driving.historyTime u = .ok () t := by
  rcases advance_cases h hdt now hs.active hs.within with ⟨vx, wz, -, hadvance⟩ | ⟨-, fault, hfault⟩
  · rw [hadvance] at hrun
    obtain ⟨_, u, hdisplace, hsample⟩ := exists_of_bind_eq_ok hrun
    refine ⟨u, ?_, hsample⟩
    rcases displace_cases vx.value wz.value dt { s with rover := { s.rover with vx, wz } } with
      hd | ⟨-, fault, hd⟩
    · cases hd.symm.trans hdisplace
      rfl
    · cases hd.symm.trans hdisplace
  · cases hfault.symm.trans hrun

/-- The samples of the stretches of time are recorded, whatever commands come between them. -/
theorem logged_of_run (h : driving.Damped)
    (hevents : ∀ dt now, .update dt now ∈ events → 0 ≤ dt) (hs : s.Roving driving)
    (hlogged : s.Logged driving.historyTime before samples)
    (hsorted : (before :: (events.filterMap Event.update?).map Prod.snd).Pairwise (· ≤ ·))
    (hrun : run driving events s = .ok legs t) :
    t.Logged driving.historyTime ((legs.getLast?.map Leg.now).getD before)
      (samples ++ legs.map Leg.sample) := by
  induction events generalizing s before samples legs with
  | nil =>
    cases hrun
    rw [List.map_nil, List.append_nil]
    exact hlogged
  | cons event rest ih =>
    have hrest : ∀ dt now, .update dt now ∈ rest → 0 ≤ dt := fun dt now hmem =>
      hevents dt now (List.mem_cons_of_mem _ hmem)
    cases event with
    | update dt now =>
      obtain ⟨u, later, hadvance, hlater, rfl⟩ := of_run_update hrun
      have hdt := hevents dt now List.mem_cons_self
      obtain ⟨moved, hhistory, hsample⟩ := exists_addSample_of_advance h hdt hs hadvance
      obtain ⟨hbefore, hsorted⟩ := List.pairwise_cons.mp hsorted
      have hrecord := (hlogged.change hhistory).record (hbefore now List.mem_cons_self) hsample
      have hvelocities : moved.rover.sample now = u.rover.sample now := by
        rw [Station.rover_of_addSample hsample]
        rfl
      rw [hvelocities] at hrecord
      have hlogged := ih hrest (roving_of_advance h hdt hs hadvance).2 hrecord hsorted hlater
      rw [List.append_assoc] at hlogged
      rw [List.getLast?_cons, Option.map_some, Option.getD_some, ← Option.getD_map Leg.now]
      exact hlogged
    | command vx wz time =>
      obtain ⟨u, hset, hrun⟩ := of_run_command hrun
      obtain ⟨⟨m, n, lastCommand, hrover⟩, hu⟩ := roving_of_setVelocities h.toBounded hs hset
      exact ih hrest hu (hlogged.change (by rw [hrover])) hsorted hrun

/-- Where time does not run backwards, the history of a rover that is driven holds the samples of
the window that ends with the last stretch of time. -/
theorem history_of_run (h : driving.Damped) (hwidth : 0 ≤ driving.historyTime.amount)
    (hevents : ∀ dt now, .update dt now ∈ events → 0 ≤ dt) (hs : s.Roving driving)
    (hempty : s.rover.history = [])
    (hsorted : (before :: (events.filterMap Event.update?).map Prod.snd).Pairwise (· ≤ ·))
    (hrun : run driving events s = .ok legs t) :
    t.rover.history = Sample.fresh driving.historyTime.amount
      ((legs.getLast?.map Leg.now).getD before) (legs.map Leg.sample) :=
  ((logged_of_run h hevents hs (.start before hempty) hsorted hrun).windowed hwidth).history

end Drive

end ArmRover
