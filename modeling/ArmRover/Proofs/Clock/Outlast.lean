import ArmRover.Proofs.Clock.Journal
import ArmRover.Proofs.Scalar.Real

/-!
# Waits within one frame

A wait for the next frame stays open as long as its own frame goes on, however often due waits are
released in it. A sleep does so only if it is longer than the slack with which times are compared.

* `Journal.after` — a journal that goes on, `Journal.exists_release_of_mem` — whatever it says was
  released had been due at a release.
* `Journal.moment_after` — time stands still within a frame.
* `Journal.OutlastsFrame` — no release within the same frame ends the wait of a pause,
  `Journal.outlastsFrame_iff_not_isDue` — that is so unless it is due as soon as it is opened.
* `Journal.outlasts_frame_iff_longer_than_slack` — which waits those are, with exact times.
-/

namespace ArmRover

/-- Whether something that happens leaves the clock in its frame. -/
def Happening.WithinFrame (e : Happening α) : Prop := ∀ dt, e ≠ .advance dt

namespace Journal

section
variable {α : Type} [Scalar α] {j : Journal α} {e : Happening α} {later : List (Happening α)}

/-- The journal after more has happened. -/
def after (j : Journal α) (later : List (Happening α)) : Journal α := later.foldl happen j

/-! ### The wait of a pause -/

/-- The wait of a pause as it would be asked for now. -/
def registration (j : Journal α) (p : Pause α) : Registration α :=
  ⟨j.clock.issued, p, j.clock.now, j.clock.frame⟩

theorem happen_pause_none {p : Pause α} (hdue : j.clock.dueAfter p = none) :
    j.happen (.pause p) = j := by
  simp only [happen, hdue]

/-- A pause that suspends opens a wait of its own. -/
theorem happen_pause {p : Pause α} {due : Due α} (hdue : j.clock.dueAfter p = some due) :
    j.happen (.pause p) =
      ⟨j.clock.register due, j.entries ++ [.registered (j.registration p)]⟩ := by
  simp only [happen, hdue, registration]

theorem wait_registration {p : Pause α} {due : Due α} (hdue : j.clock.dueAfter p = some due) :
    (j.registration p).wait = ⟨j.clock.issued, due, j.clock.frame⟩ := by
  cases p with
  | nextFrame =>
    cases hdue
    rfl
  | sleep seconds =>
    simp only [Clock.dueAfter] at hdue
    split at hdue <;> cases hdue
    rfl

/-! ### One happening, and many -/

theorem Sound.after (h : j.Sound) (later : List (Happening α)) : (j.after later).Sound := by
  induction later generalizing j with
  | nil => exact h
  | cons e rest ih => exact ih (h.happen e)

/-- Nothing that was written down is lost. -/
theorem entries_happen (j : Journal α) (e : Happening α) :
    ∃ new, (j.happen e).entries = j.entries ++ new := by
  cases e with
  | pause p =>
    cases hdue : j.clock.dueAfter p with
    | none => exact ⟨[], by rw [happen_pause_none hdue, List.append_nil]⟩
    | some due => exact ⟨_, by rw [happen_pause hdue]⟩
  | advance dt => exact ⟨[], (List.append_nil _).symm⟩
  | release => exact ⟨_, rfl⟩
  | drop ticket => exact ⟨_, rfl⟩
  | dropAll => exact ⟨_, rfl⟩

theorem mem_registrations_after {r : Registration α} (h : r ∈ j.registrations)
    (later : List (Happening α)) : r ∈ (j.after later).registrations := by
  induction later generalizing j with
  | nil => exact h
  | cons e rest ih =>
    refine ih ?_
    obtain ⟨new, hnew⟩ := j.entries_happen e
    unfold registrations
    rw [hnew, List.filterMap_append]
    exact List.mem_append_left _ h

theorem moment_happen (he : e.WithinFrame) (j : Journal α) :
    (j.happen e).clock.now = j.clock.now ∧ (j.happen e).clock.frame = j.clock.frame := by
  cases e with
  | pause p =>
    cases hdue : j.clock.dueAfter p with
    | none =>
      rw [happen_pause_none hdue]
      exact ⟨rfl, rfl⟩
    | some due =>
      rw [happen_pause hdue]
      exact ⟨rfl, rfl⟩
  | advance dt => exact absurd rfl (he dt)
  | release => exact ⟨rfl, rfl⟩
  | drop ticket => exact ⟨rfl, rfl⟩
  | dropAll => exact ⟨rfl, rfl⟩

/-- Within a frame neither the time nor the frame changes. -/
theorem moment_after (hlater : ∀ e ∈ later, e.WithinFrame) (j : Journal α) :
    (j.after later).clock.now = j.clock.now ∧ (j.after later).clock.frame = j.clock.frame := by
  induction later generalizing j with
  | nil => exact ⟨rfl, rfl⟩
  | cons e rest ih =>
    obtain ⟨hnow, hframe⟩ := moment_happen (hlater e List.mem_cons_self) j
    obtain ⟨hnow', hframe'⟩ :=
      ih (fun e' he' => hlater e' (List.mem_cons_of_mem e he')) (j.happen e)
    exact ⟨hnow'.trans hnow, hframe'.trans hframe⟩

/-- Only a release writes down that a wait was released, and only if the wait is due. -/
theorem due_of_mem_happen {ticket : Nat} (h : .released ticket ∈ (j.happen e).entries)
    (hnew : .released ticket ∉ j.entries) :
    e = .release ∧ ∃ w ∈ j.clock.due, w.ticket = ticket := by
  cases e with
  | pause p =>
    cases hdue : j.clock.dueAfter p with
    | none =>
      rw [happen_pause_none hdue] at h
      exact absurd h hnew
    | some due =>
      rw [happen_pause hdue] at h
      rcases List.mem_append.mp h with h | h
      · exact absurd h hnew
      · cases List.mem_singleton.mp h
  | advance dt => exact absurd h hnew
  | release =>
    rcases List.mem_append.mp h with h | h
    · exact absurd h hnew
    · obtain ⟨w, hw, heq⟩ := List.mem_map.mp h
      exact ⟨rfl, w, hw, Entry.released.inj heq⟩
  | drop _ | dropAll =>
    rcases List.mem_append.mp h with h | h
    · exact absurd h hnew
    · obtain ⟨w, -, heq⟩ := List.mem_map.mp h
      cases heq

/-- What is written down as released in the meantime was due at some release of that time. -/
theorem exists_release_of_mem {ticket : Nat} (h : .released ticket ∈ (j.after later).entries)
    (hnew : .released ticket ∉ j.entries) :
    ∃ first rest, later = first ++ .release :: rest ∧
      ∃ w ∈ (j.after first).clock.due, w.ticket = ticket := by
  induction later generalizing j with
  | nil => exact absurd h hnew
  | cons e rest ih =>
    by_cases hnow : .released ticket ∈ (j.happen e).entries
    · obtain ⟨rfl, hdue⟩ := due_of_mem_happen hnow hnew
      exact ⟨[], rest, rfl, hdue⟩
    · obtain ⟨first, last, rfl, hdue⟩ := ih h hnow
      exact ⟨e :: first, last, rfl, hdue⟩

/-! ### A wait and its frame -/

/-- Whether the wait of a pause would be due as soon as it is opened. -/
def dueAtOnce (j : Journal α) (p : Pause α) : Bool :=
  (j.registration p).isDue j.clock.now j.clock.frame

/-- No release in the frame in which the wait of a pause is opened ends it, whatever else happens
in that frame. -/
def OutlastsFrame (j : Journal α) (p : Pause α) : Prop :=
  ∀ later : List (Happening α), (∀ e ∈ later, e.WithinFrame) →
    .released j.clock.issued ∉ ((j.happen (.pause p)).after later).entries

/-- The next release ends a wait that is due at once. -/
theorem released_of_dueAtOnce {p : Pause α} {due : Due α} (hdue : j.clock.dueAfter p = some due)
    (h : j.dueAtOnce p = true) :
    .released j.clock.issued ∈ ((j.happen (.pause p)).after [.release]).entries := by
  have hopen : (⟨j.clock.issued, due, j.clock.frame⟩ : Wait α) ∈
      (j.happen (.pause p)).clock.waits := by
    rw [happen_pause hdue]
    exact List.mem_append_right _ (List.mem_singleton_self _)
  have hended : (⟨j.clock.issued, due, j.clock.frame⟩ : Wait α) ∈
      (j.happen (.pause p)).clock.due := by
    refine List.mem_filter.mpr ⟨hopen, ?_⟩
    rw [happen_pause hdue, ← wait_registration hdue, isDue_wait]
    exact h
  exact List.mem_append_right _ (List.mem_map_of_mem hended)

/-- A wait outlasts its frame unless it is due as soon as it is opened. -/
theorem outlastsFrame_iff_not_isDue (hj : j.Sound) {p : Pause α}
    (hp : (j.clock.dueAfter p).isSome) : j.OutlastsFrame p ↔ j.dueAtOnce p = false := by
  obtain ⟨due, hdue⟩ := Option.isSome_iff_exists.mp hp
  constructor
  · intro h
    refine Bool.eq_false_iff.mpr fun hatOnce => ?_
    refine h [.release] ?_ (released_of_dueAtOnce hdue hatOnce)
    intro e he dt
    rw [List.mem_singleton.mp he]
    exact nofun
  · intro hnot later hlater hmem
    have hregistered : j.registration p ∈ (j.happen (.pause p)).registrations := by
      rw [happen_pause hdue]
      simp [registrations, Entry.registration?]
    -- the ticket is new, so that nothing is written down about it before
    have hnew : .released j.clock.issued ∉ (j.happen (.pause p)).entries := by
      intro hmem
      rw [happen_pause hdue] at hmem
      rcases List.mem_append.mp hmem with hmem | hmem
      · exact Nat.lt_irrefl _ (hj.known _ (List.mem_filterMap.mpr ⟨_, hmem, rfl⟩))
      · cases List.mem_singleton.mp hmem
    obtain ⟨first, rest, rfl, w, hw, hticket⟩ := exists_release_of_mem hmem hnew
    have hsound := (hj.happen (.pause p)).after first
    rw [hsound.due_eq] at hw
    obtain ⟨r, hr, rfl⟩ := List.mem_map.mp hw
    obtain ⟨hr, hdueThen⟩ := List.mem_filter.mp hr
    have hsame : r = j.registration p :=
      List.inj_on_of_nodup_map hsound.nodup_tickets (List.mem_of_mem_filter hr)
        (mem_registrations_after hregistered first) hticket
    have hfirst : ∀ e ∈ first, e.WithinFrame := fun e he => hlater e (List.mem_append_left _ he)
    obtain ⟨hnow, hframe⟩ := moment_after hfirst (j.happen (.pause p))
    rw [hsame, hnow, hframe, happen_pause hdue] at hdueThen
    exact Bool.false_ne_true (hnot.symm.trans hdueThen)

end

/-! ### Exact times -/

/-- A wait is due at once if it is for a time within the slack. -/
theorem dueAtOnce_iff (j : Journal ℝ) (p : Pause ℝ) :
    j.dueAtOnce p = true ↔ ∃ seconds, p = .sleep seconds ∧ seconds ≤ 1e-9 := by
  cases p with
  | nextFrame => simp [dueAtOnce, registration, Registration.isDue]
  | sleep seconds =>
    have hslack : (@OfScientific.ofScientific ℝ Scalar.instOfScientific 1 true 9) = 1e-9 :=
      Clock.slack_real
    simp only [dueAtOnce, registration, Registration.isDue, hslack, decide_eq_true_eq,
      Pause.sleep.injEq, exists_eq_left']
    constructor
    · intro h
      linarith
    · intro h
      linarith

/-- Whatever happened before, a wait outlasts the frame in which it is opened unless it is a sleep
that is no longer than a billionth of a second. -/
theorem outlasts_frame_iff_longer_than_slack (start : ℝ) (before : List (Happening ℝ))
    (p : Pause ℝ) (hp : ((record start before).clock.dueAfter p).isSome) :
    (record start before).OutlastsFrame p ↔ ∀ seconds, p = .sleep seconds → 1e-9 < seconds := by
  rw [outlastsFrame_iff_not_isDue (sound_record start before) hp, ← Bool.not_eq_true,
    dueAtOnce_iff]
  simp only [not_exists, not_and, not_le]

/-- In the first frame half a second outlasts it. -/
theorem outlasts_frame_half_second :
    ((record (0 : ℝ) []).clock.dueAfter (.sleep (1 / 2))).isSome ∧
      (record (0 : ℝ) []).OutlastsFrame (.sleep (1 / 2)) := by
  have hp : ((record (0 : ℝ) []).clock.dueAfter (.sleep (1 / 2))).isSome := by
    rw [Clock.dueAfter_of_pos _ (by norm_num)]
    rfl
  refine ⟨hp, (outlasts_frame_iff_longer_than_slack 0 [] (.sleep (1 / 2)) hp).mpr ?_⟩
  rintro seconds hseconds
  cases hseconds
  norm_num

/-- A sleep that is shorter than the slack ends at the next release, in its own frame. -/
theorem not_outlasts_frame_of_short :
    ¬ ∀ (start : ℝ) (before : List (Happening ℝ)) (p : Pause ℝ),
      ((record start before).clock.dueAfter p).isSome → (record start before).OutlastsFrame p := by
  intro h
  have hp : ((record (0 : ℝ) []).clock.dueAfter (.sleep 1e-10)).isSome := by
    rw [Clock.dueAfter_of_pos _ (by norm_num)]
    rfl
  have hstays := (outlastsFrame_iff_not_isDue (sound_record 0 []) hp).mp (h 0 [] _ hp)
  have hends : (record (0 : ℝ) []).dueAtOnce (.sleep 1e-10) = true :=
    (dueAtOnce_iff _ _).mpr ⟨1e-10, rfl, by norm_num⟩
  exact Bool.false_ne_true (hstays.symm.trans hends)

end Journal

end ArmRover
