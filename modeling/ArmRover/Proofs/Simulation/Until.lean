import ArmRover.Proofs.Simulation.Course

/-!
# Frames until something

A run to the end of a program and a run to a time are the same loop: frames are made until the
simulation is where the run stops. After frames that pass without a fault and without a reason to
stop, the run is the one from there on, with as many frames fewer.

* `Simulation.framesUntil` — the loop, `Simulation.runFrames_eq`, `Simulation.runTo_eq` — its two
  forms.
* `Simulation.Unstopped` — so many frames go by, `Simulation.framesUntil_add` — and the run goes on.
* `Simulation.exists_of_framesUntil` — the three ways in which a run comes to its end.
* `Simulation.verdict?_of_running`, `Simulation.verdict?_of_not_running` — when there is a verdict
  on a program, `Simulation.tell_eq` — how it is told.
-/

namespace ArmRover.Simulation

variable {α β : Type} [Scalar α]

open ArmRover.Action

/-! ### The loop -/

/-- Frames of one length until the run stops, at most so many. How it stops depends on where it
is. -/
def framesUntil (cfg : Settings α) (dt : α)
    (stop : Simulation α → Option (Action α (Simulation α) β)) : Nat → Action α (Simulation α) β
  | 0 => do
    match stop (← get) with
    | some last => last
    | none => throw .outOfFrames
  | n + 1 => do
    match stop (← get) with
    | some last => last
    | none =>
      frame cfg dt
      framesUntil cfg dt stop n

/-- Where a run to the end of a program stops. -/
def judged? (limit : Value α) (since : α) (s : Simulation α) :
    Option (Action α (Simulation α) (List (Value α))) :=
  (s.verdict? limit since).map tell

theorem runFrames_eq (cfg : Settings α) (dt : α) (limit : Value α) (since : α) (n : Nat) :
    runFrames cfg dt limit since n = framesUntil cfg dt (judged? limit since) n := by
  induction n with
  | zero =>
    unfold runFrames framesUntil judged?
    refine bind_congr fun s => ?_
    cases s.verdict? limit since <;> rfl
  | succ n ih =>
    unfold runFrames framesUntil judged?
    refine bind_congr fun s => ?_
    rw [ih]
    cases s.verdict? limit since <;> rfl

/-- Where a run to a time stops. -/
def arrived? (finish : α) (s : Simulation α) : Option (Action α (Simulation α) Unit) :=
  if s.before finish then none else some (pure ())

theorem eq_pure_of_arrived? {finish : α} {s : Simulation α} {last : Action α (Simulation α) Unit}
    (h : arrived? finish s = some last) : last = pure () := by
  unfold arrived? at h
  split at h <;> cases h
  rfl

theorem runTo_eq (cfg : Settings α) (dt finish : α) (n : Nat) :
    runTo cfg dt finish n = framesUntil cfg dt (arrived? finish) n := by
  induction n with
  | zero =>
    unfold runTo framesUntil arrived?
    refine bind_congr fun s => ?_
    cases s.before finish <;> rfl
  | succ n ih =>
    unfold runTo framesUntil arrived?
    refine bind_congr fun s => ?_
    rw [ih]
    cases s.before finish <;> rfl

/-! ### Going on -/

variable {cfg : Settings α} {dt : α} {stop : Simulation α → Option (Action α (Simulation α) β)}
  {s t : Simulation α}

/-- So many frames go by without a fault, and a run does not stop before the last one is made. -/
def Unstopped (cfg : Settings α) (dt : α)
    (stop : Simulation α → Option (Action α (Simulation α) β)) (n : Nat) (s : Simulation α) :
    Prop :=
  ∀ j < n, stop (s.frames cfg dt j) = none ∧ ∃ t, pass cfg dt (s.frames cfg dt j) = .ok () t

theorem unstopped_succ_iff (hpass : pass cfg dt s = .ok () t) {n : Nat} :
    Unstopped cfg dt stop (n + 1) s ↔ stop s = none ∧ Unstopped cfg dt stop n (t.serve cfg) := by
  constructor
  · intro h
    refine ⟨(h 0 (Nat.succ_pos n)).1, fun j hj => ?_⟩
    rw [← frames_succ_of_pass hpass]
    exact h (j + 1) (Nat.succ_lt_succ hj)
  · rintro ⟨hstop, h⟩ j hj
    cases j with
    | zero => exact ⟨hstop, t, hpass⟩
    | succ j =>
      rw [frames_succ_of_pass hpass]
      exact h j (Nat.lt_of_succ_lt_succ hj)

theorem framesUntil_of_stop {last : Action α (Simulation α) β} (h : stop s = some last) (n : Nat) :
    framesUntil cfg dt stop n s = last s := by
  cases n with
  | zero =>
    rw [framesUntil, run_get_bind, h]
  | succ n =>
    rw [framesUntil, run_get_bind, h]

theorem framesUntil_zero (h : stop s = none) :
    framesUntil cfg dt stop 0 s = .error .outOfFrames s := by
  rw [framesUntil, run_get_bind, h]
  rfl

theorem framesUntil_succ (h : stop s = none) (n : Nat) :
    framesUntil cfg dt stop (n + 1) s = (do frame cfg dt; framesUntil cfg dt stop n) s := by
  rw [framesUntil, run_get_bind, h]

/-- After frames that go by, a run goes on with the frames that are left. -/
theorem framesUntil_add {k : Nat} (h : Unstopped cfg dt stop k s) (n : Nat) :
    framesUntil cfg dt stop (k + n) s = framesUntil cfg dt stop n (s.frames cfg dt k) := by
  induction k generalizing s with
  | zero => rw [Nat.zero_add, frames]
  | succ k ih =>
    obtain ⟨hstop, t, hpass⟩ := h 0 (Nat.succ_pos k)
    have hpass : pass cfg dt s = .ok () t := hpass
    obtain ⟨hstop, hrest⟩ := (unstopped_succ_iff hpass).mp h
    rw [Nat.succ_add, framesUntil_succ hstop, run_bind (frame_of_pass hpass), ih hrest,
      frames_succ_of_pass hpass]

/-- A run stops, or it has used up its frames, or a frame fails. -/
theorem exists_of_framesUntil (cfg : Settings α) (dt : α)
    (stop : Simulation α → Option (Action α (Simulation α) β)) (n : Nat) (s : Simulation α) :
    ∃ k ≤ n, Unstopped cfg dt stop k s ∧
      ((∃ last, stop (s.frames cfg dt k) = some last ∧
          framesUntil cfg dt stop n s = last (s.frames cfg dt k)) ∨
        (stop (s.frames cfg dt k) = none ∧ k = n ∧
          framesUntil cfg dt stop n s = .error .outOfFrames (s.frames cfg dt k)) ∨
        (stop (s.frames cfg dt k) = none ∧ k < n ∧ ∃ fault t,
          pass cfg dt (s.frames cfg dt k) = .error fault t ∧
            framesUntil cfg dt stop n s = .error fault t)) := by
  classical
  -- the largest number of frames that go by
  let k := Nat.findGreatest (fun k => Unstopped cfg dt stop k s) n
  have hk : k ≤ n := Nat.findGreatest_le n
  have hgone : Unstopped cfg dt stop k s :=
    Nat.findGreatest_spec (P := fun k => Unstopped cfg dt stop k s) (Nat.zero_le n)
      fun j hj => absurd hj (Nat.not_lt_zero j)
  obtain ⟨m, hm⟩ := Nat.exists_eq_add_of_le hk
  have hrun := framesUntil_add hgone m
  rw [← hm] at hrun
  refine ⟨k, hk, hgone, ?_⟩
  cases hstop : stop (s.frames cfg dt k) with
  | some last => exact .inl ⟨last, rfl, hrun.trans (framesUntil_of_stop hstop m)⟩
  | none =>
    cases m with
    | zero => exact .inr (.inl ⟨rfl, hm.symm, hrun.trans (framesUntil_zero hstop)⟩)
    | succ m =>
      have hlt : k < n := by omega
      cases hpass : pass cfg dt (s.frames cfg dt k) with
      | ok _ t =>
        refine absurd (fun j hj => ?_) (Nat.findGreatest_is_greatest (Nat.lt_succ_self k) hlt)
        rcases Nat.lt_succ_iff_lt_or_eq.mp hj with hj | rfl
        · exact hgone j hj
        · exact ⟨hstop, t, hpass⟩
      | error fault t =>
        refine .inr (.inr ⟨rfl, hlt, fault, t, rfl, hrun.trans ?_⟩)
        rw [framesUntil_succ hstop, run_bind_error (frame_of_pass_error hpass)]

/-! ### Verdicts -/

/-- While a program runs the only verdict on it is that its time is over. -/
theorem verdict?_of_running (h : s.running = true) (limit : Value α) (since : α) :
    s.verdict? limit since = (expired? limit (s.scene.clock.now - since)).map .error := by
  unfold running at h
  unfold verdict?
  cases hjob : s.job with
  | none =>
    rw [hjob] at h
    exact absurd h Bool.false_ne_true
  | some job =>
    rw [hjob] at h
    cases job with
    | fresh commands => rfl
    | waiting ticket rest => rfl
    | cancelling => rfl
    | cancelled => exact absurd h Bool.false_ne_true
    | failed fault => exact absurd h Bool.false_ne_true
    | finished readings => exact absurd h Bool.false_ne_true

/-- Without a limit a run goes on as long as the program runs. -/
theorem judged?_of_running (h : s.running = true) (since : α) : judged? .null since s = none := by
  unfold judged?
  rw [verdict?_of_running h]
  rfl

/-- The verdict on a program that does not run is in its state alone. -/
theorem verdict?_of_not_running (h : s.running = false) :
    ∃ verdict, ∀ t : Simulation α, t.job = s.job → ∀ limit since,
      t.verdict? limit since = some verdict := by
  unfold running at h
  unfold verdict?
  cases hjob : s.job with
  | none => exact ⟨_, fun t ht _ _ => by rw [ht]⟩
  | some job =>
    rw [hjob] at h
    cases job with
    | cancelled => exact ⟨_, fun t ht _ _ => by rw [ht]⟩
    | failed fault => exact ⟨_, fun t ht _ _ => by rw [ht]⟩
    | finished readings => exact ⟨_, fun t ht _ _ => by rw [ht]⟩
    | _ => exact absurd h.symm Bool.false_ne_true

omit [Scalar α] in
/-- To tell a verdict is to answer with it. The simulation stays as it is, unless the fault of its
program is told. -/
theorem tell_eq (verdict : Except (Fault α) β) (s : Simulation α) :
    ∃ t, tell verdict s = lift verdict t ∧
      ((∀ fault, s.job ≠ some (.failed fault)) → t = s) := by
  unfold tell
  rw [run_get_bind]
  cases hjob : s.job with
  | none => exact ⟨s, rfl, fun _ => rfl⟩
  | some job =>
    cases job with
    | failed fault => exact ⟨_, rfl, fun h => absurd rfl (h fault)⟩
    | _ => exact ⟨s, rfl, fun _ => rfl⟩

end ArmRover.Simulation
