import ArmRover.Proofs.Simulation.Faults
import ArmRover.Proofs.Simulation.Until

/-!
# The frames of requests

Single frames, stretches of time and runs are made of frames of one length, one after the other. As
long as the program runs, nothing else happens in them.

* `Simulation.course` — the simulations after the frames of requests, `Simulation.firstFrames` —
  after so many frames.
* `Simulation.Flows` — frames that go by without a fault.
* `Simulation.exists_of_run`, `Simulation.exists_of_ask` — the frames of one request.
* `Simulation.frames_of_course` — the frames of requests are those that would be made one by one,
  `Simulation.finishes_at_frame` — the program comes to its end in the same one.
-/

namespace ArmRover.Simulation

variable {α β : Type} [Scalar α]

open ArmRover.Action

/-! ### The simulations after the frames -/

/-- The simulations after the frames of a run that stops somewhere. -/
def courseUntil (cfg : Settings α) (dt : α) (stop : Simulation α → Option β) :
    Nat → Simulation α → List (Simulation α)
  | 0, _ => []
  | n + 1, s =>
    match stop s with
    | some _ => []
    | none =>
      match frame cfg dt s with
      | .ok _ t => t :: courseUntil cfg dt stop n t
      | .error _ t => [t]

/-- The simulations after the frames of a request. -/
def courseIn (cfg : Settings α) (s : Simulation α) : Request α → List (Simulation α)
  | .frame dt => [final (frame cfg dt s)]
  | .elapse seconds dt n => s.courseUntil cfg dt (arrived? (s.scene.clock.now + seconds)) n
  | .runToEnd dt limit n => s.courseUntil cfg dt (judged? limit s.scene.clock.now) n
  | _ => []

/-- The simulations after the frames of requests, one after the other. -/
def course (cfg : Settings α) (s : Simulation α) : List (Request α) → List (Simulation α)
  | [] => []
  | r :: rest => s.courseIn cfg r ++ course cfg (s.ask cfg r).2 rest

/-- The simulations after so many frames, one after the other. -/
def firstFrames (cfg : Settings α) (dt : α) (n : Nat) (s : Simulation α) : List (Simulation α) :=
  (List.range n).map fun j => s.frames cfg dt (j + 1)

variable {cfg : Settings α} {dt : α} {stop : Simulation α → Option (Action α (Simulation α) β)}
  {s t : Simulation α}

theorem length_firstFrames (cfg : Settings α) (dt : α) (n : Nat) (s : Simulation α) :
    (s.firstFrames cfg dt n).length = n := by
  unfold firstFrames
  rw [List.length_map, List.length_range]

theorem getElem?_firstFrames {n k : Nat} (h : k < n) :
    (s.firstFrames cfg dt n)[k]? = some (s.frames cfg dt (k + 1)) := by
  unfold firstFrames
  rw [List.getElem?_map, List.getElem?_range h]
  rfl

theorem firstFrames_succ_of_pass (hpass : pass cfg dt s = .ok () t) (n : Nat) :
    s.firstFrames cfg dt (n + 1) = t.serve cfg :: (t.serve cfg).firstFrames cfg dt n := by
  have hframes : ∀ j, s.frames cfg dt (j + 1) = (t.serve cfg).frames cfg dt j :=
    frames_succ_of_pass hpass
  unfold firstFrames
  rw [List.range_succ_eq_map, List.map_cons, List.map_map, hframes]
  refine congrArg _ (List.map_congr_left fun j _ => ?_)
  exact hframes (j + 1)

/-- The frames of a run are those that go by, and those after them. -/
theorem courseUntil_add {k : Nat} (h : Unstopped cfg dt stop k s) (n : Nat) :
    s.courseUntil cfg dt stop (k + n) =
      s.firstFrames cfg dt k ++ (s.frames cfg dt k).courseUntil cfg dt stop n := by
  induction k generalizing s with
  | zero =>
    rw [Nat.zero_add]
    rfl
  | succ k ih =>
    obtain ⟨hstop, t, hpass⟩ := h 0 (Nat.succ_pos k)
    have hpass : pass cfg dt s = .ok () t := hpass
    obtain ⟨hstop, hrest⟩ := (unstopped_succ_iff hpass).mp h
    rw [Nat.succ_add, firstFrames_succ_of_pass hpass, frames_succ_of_pass hpass, List.cons_append,
      ← ih hrest, courseUntil, hstop, frame_of_pass hpass]

theorem courseUntil_of_stop {last : Action α (Simulation α) β} (h : stop s = some last) (n : Nat) :
    s.courseUntil cfg dt stop n = [] := by
  cases n with
  | zero => rfl
  | succ n => rw [courseUntil, h]

theorem courseUntil_of_error (h : stop s = none) {fault : Fault α}
    (hpass : pass cfg dt s = .error fault t) (n : Nat) :
    s.courseUntil cfg dt stop (n + 1) = [t] := by
  rw [courseUntil, h, frame_of_pass_error hpass]

/-- So many frames go by without a fault. -/
def Flows (cfg : Settings α) (dt : α) (n : Nat) (s : Simulation α) : Prop :=
  ∀ j < n, ∃ t, pass cfg dt (s.frames cfg dt j) = .ok () t

theorem Unstopped.flows {n : Nat} (h : Unstopped cfg dt stop n s) : s.Flows cfg dt n :=
  fun j hj => (h j hj).2

/-- A run stops after frames that go by, or it fails, but not because its time is over. -/
theorem exists_of_run (cfg : Settings α) (dt : α)
    (stop : Simulation α → Option (Action α (Simulation α) β)) (n : Nat) (s : Simulation α) :
    ∃ k, s.courseUntil cfg dt stop n = s.firstFrames cfg dt k ∧
      ((∃ last, stop (s.frames cfg dt k) = some last ∧ k ≤ n ∧ Unstopped cfg dt stop k s ∧
          framesUntil cfg dt stop n s = last (s.frames cfg dt k)) ∨
        ∃ fault, (∀ limit, fault ≠ .timedOut limit) ∧
          framesUntil cfg dt stop n s = .error fault (s.frames cfg dt k)) := by
  obtain ⟨k, hk, hgone, hend⟩ := exists_of_framesUntil cfg dt stop n s
  obtain ⟨m, rfl⟩ := Nat.exists_eq_add_of_le hk
  have hcourse := courseUntil_add hgone m
  obtain ⟨last, hstop, hrun⟩ | ⟨-, hm, hrun⟩ | ⟨hstop, hlt, fault, t, hpass, hrun⟩ := hend
  · rw [courseUntil_of_stop hstop, List.append_nil] at hcourse
    exact ⟨k, hcourse, .inl ⟨last, hstop, hk, hgone, hrun⟩⟩
  · obtain rfl : m = 0 := by omega
    rw [courseUntil, List.append_nil] at hcourse
    exact ⟨k, hcourse, .inr ⟨.outOfFrames, nofun, hrun⟩⟩
  · obtain ⟨m, rfl⟩ : ∃ n, m = n + 1 := ⟨m - 1, by omega⟩
    have hlast : t = s.frames cfg dt (k + 1) := by
      rw [frames_succ_last, frame_of_pass_error hpass]
      rfl
    refine ⟨k + 1, ?_, .inr ⟨fault, ?_, hlast ▸ hrun⟩⟩
    · rw [hcourse, courseUntil_of_error hstop hpass, hlast]
      unfold firstFrames
      rw [List.range_succ, List.map_append]
      rfl
    · rintro limit rfl
      exact throws_pass cfg dt _ _ _ hpass

/-! ### Requests in which time passes -/

theorem ask_elapse (cfg : Settings α) (seconds dt : α) (n : Nat) (s : Simulation α) :
    s.ask cfg (.elapse seconds dt n) =
      match framesUntil cfg dt (arrived? (s.scene.clock.now + seconds)) n s with
      | .ok _ t => (.ok .done, t)
      | .error fault t => (.error fault, t) := by
  have hrun : elapse cfg seconds dt n s =
      framesUntil cfg dt (arrived? (s.scene.clock.now + seconds)) n s := by
    unfold elapse
    rw [run_get_bind, runTo_eq]
  cases hend : framesUntil cfg dt (arrived? (s.scene.clock.now + seconds)) n s with
  | ok _ t => exact ask_of_carryOut (run_bind (hrun.trans hend))
  | error fault t => exact ask_of_carryOut_error (run_bind_error (hrun.trans hend))

theorem ask_runToEnd (cfg : Settings α) (dt : α) (limit : Value α) (n : Nat) (s : Simulation α) :
    s.ask cfg (.runToEnd dt limit n) =
      match framesUntil cfg dt (judged? limit s.scene.clock.now) n s with
      | .ok readings t => (.ok (.readings readings), t)
      | .error fault t => (.error fault, t) := by
  have hrun : runToEnd cfg dt limit n s =
      framesUntil cfg dt (judged? limit s.scene.clock.now) n s := by
    unfold runToEnd
    rw [run_get_bind, runFrames_eq]
  cases hend : framesUntil cfg dt (judged? limit s.scene.clock.now) n s with
  | ok readings t => exact ask_of_carryOut (run_bind (hrun.trans hend))
  | error fault t => exact ask_of_carryOut_error (run_bind_error (hrun.trans hend))

/-- The frames of a request are the next ones, and it leads to the last of them, as long as the
program runs there. -/
theorem exists_of_ask (cfg : Settings α) {r : Request α} (hr : r.frameTime? = some dt)
    (s : Simulation α) :
    ∃ k, s.courseIn cfg r = s.firstFrames cfg dt k ∧
      ((s.frames cfg dt k).running = true → (s.ask cfg r).2 = s.frames cfg dt k) := by
  cases r with
  | frame dt' =>
    cases hr
    exact ⟨1, rfl, fun _ => (final_frame cfg dt s).symm⟩
  | elapse seconds dt' n =>
    cases hr
    obtain ⟨k, hcourse, hend⟩ := exists_of_run cfg dt (arrived? (s.scene.clock.now + seconds)) n s
    refine ⟨k, hcourse, fun _ => ?_⟩
    rw [ask_elapse]
    obtain ⟨last, hlast, -, -, hrun⟩ | ⟨fault, -, hrun⟩ := hend
    · obtain rfl := eq_pure_of_arrived? hlast
      rw [hrun]
      rfl
    · rw [hrun]
  | runToEnd dt' limit n =>
    cases hr
    obtain ⟨k, hcourse, hend⟩ := exists_of_run cfg dt (judged? limit s.scene.clock.now) n s
    refine ⟨k, hcourse, fun hrunning => ?_⟩
    rw [ask_runToEnd]
    obtain ⟨last, hlast, -, -, hrun⟩ | ⟨fault, -, hrun⟩ := hend
    · rw [hrun]
      obtain ⟨verdict, -, rfl⟩ := Option.map_eq_some_iff.mp hlast
      obtain ⟨t, htell, hsame⟩ := tell_eq verdict (s.frames cfg dt k)
      rw [htell, hsame (not_failed_of_running hrunning)]
      cases verdict <;> rfl
    · rw [hrun]
  | _ => cases hr

/-! ### Sequences of requests -/

/-- As long as the program runs, the frames of requests are those that would be made one by one. -/
theorem frames_of_course {calls : List (Request α)} (hcalls : ∀ r ∈ calls, r.frameTime? = some dt)
    {k : Nat} (hframe : (s.course cfg calls)[k]? = some t)
    (hrunning : (s.frames cfg dt k).running = true) : t = s.frames cfg dt (k + 1) := by
  induction calls generalizing s k with
  | nil => cases hframe
  | cons r rest ih =>
    obtain ⟨hr, hrest⟩ := List.forall_mem_cons.mp hcalls
    obtain ⟨n, hcourse, hafter⟩ := exists_of_ask cfg hr s
    have hlength : (s.courseIn cfg r).length = n := by rw [hcourse, length_firstFrames]
    rw [course] at hframe
    rcases Nat.lt_or_ge k n with hlt | hge
    · rw [List.getElem?_append_left (hlength ▸ hlt), hcourse, getElem?_firstFrames hlt] at hframe
      exact (Option.some.inj hframe).symm
    · obtain ⟨i, rfl⟩ := Nat.exists_eq_add_of_le hge
      rw [List.getElem?_append_right (hlength ▸ hge), hlength, Nat.add_sub_cancel_left,
        hafter (running_frames_of_le hge hrunning)] at hframe
      rw [frames_add] at hrunning
      rw [Nat.add_assoc, frames_add]
      exact ih hrest hframe hrunning

/-- A program comes to its end in the frame of the requests in which it would if the frames were
made one by one. -/
theorem finishes_at_frame {calls : List (Request α)}
    (hcalls : ∀ r ∈ calls, r.frameTime? = some dt) (hs : s.running = true) {k : Nat}
    (hframe : (s.course cfg calls)[k]? = some t) :
    (∀ j < k, ∀ u, (s.course cfg calls)[j]? = some u → u.running = true) ∧ t.running = false ↔
      (s.frames cfg dt k).running = true ∧ (s.frames cfg dt (k + 1)).running = false := by
  have hlength : k < (s.course cfg calls).length := (List.getElem?_eq_some_iff.mp hframe).1
  constructor
  · rintro ⟨hearlier, ht⟩
    have hrunning : ∀ j ≤ k, (s.frames cfg dt j).running = true := by
      intro j hj
      induction j with
      | zero => exact hs
      | succ j ih =>
        have hlt : j < (s.course cfg calls).length := by omega
        have hget := List.getElem?_eq_getElem hlt
        rw [← frames_of_course hcalls hget (ih (by omega))]
        exact hearlier j hj _ hget
    have hnow := hrunning k (Nat.le_refl k)
    exact ⟨hnow, frames_of_course hcalls hframe hnow ▸ ht⟩
  · rintro ⟨hnow, hlast⟩
    refine ⟨fun j hj u hu => ?_, frames_of_course hcalls hframe hnow ▸ hlast⟩
    rw [frames_of_course hcalls hu (running_frames_of_le (Nat.le_of_lt hj) hnow)]
    exact running_frames_of_le hj hnow

end ArmRover.Simulation
