import ArmRover.Proofs.Simulation.Steady
import ArmRover.Proofs.Simulation.Passage

/-!
# Ways to drive a program

A program is driven on by frames, and it makes no difference who asks for them: single frames,
stretches of time, and runs that give up because their time is over all lead through the same
simulations.

* `Request.Drives`, `Simulation.Driven` — requests that drive a program on,
  `Simulation.frames_of_driven` — where they lead.
* `Simulation.Ends` — what a run without a limit answers, `Simulation.ends_frames_iff` — the same as
  it would have answered some frames earlier.
* `Simulation.timedOut_iff` — when a run gives up on a program.
* `Simulation.driving_makes_no_difference` — all ways to drive a program are alike.
-/

namespace ArmRover

variable {α : Type} [Scalar α]

open ArmRover.Action

omit [Scalar α] in
/-- A request that drives a program on, by its answer: it has let frames pass, or it is a run that
has given up because its time is over. -/
def Request.Drives : Request α → Except (Fault α) (Reply α) → Prop
  | frame _, answer | elapse .., answer => answer = .ok .done
  | runToEnd .., answer => ∃ limit, answer = .error (.timedOut limit)
  | _, _ => False

namespace Simulation

variable {cfg : Settings α} {dt : α} {s t : Simulation α}

/-! ### Requests that drive a program on -/

theorem Candid.frames (h : s.Candid) (cfg : Settings α) (dt : α) (n : Nat) :
    (s.frames cfg dt n).Candid := by
  induction n with
  | zero => exact h
  | succ n ih =>
    rw [frames_succ_last]
    exact preserves_candid_frame cfg dt _ ih

/-- Only a program that runs has the verdict that its time is over. -/
theorem Candid.of_verdict? (h : s.Candid) {limit : Value α} {since x : α}
    (hverdict : s.verdict? limit since = some (.error (.timedOut x))) :
    s.running = true ∧ expired? limit (s.scene.clock.now - since) = some (.timedOut x) := by
  cases hrunning : s.running with
  | true =>
    rw [verdict?_of_running hrunning] at hverdict
    obtain ⟨fault, hexpired, hfault⟩ := Option.map_eq_some_iff.mp hverdict
    cases hfault
    exact ⟨rfl, hexpired⟩
  | false =>
    unfold running at hrunning
    unfold verdict? at hverdict
    cases hjob : s.job with
    | none =>
      rw [hjob] at hverdict
      cases hverdict
    | some job =>
      rw [hjob] at hrunning hverdict
      cases job with
      | cancelled => cases hverdict
      | finished readings => cases hverdict
      | failed fault =>
        cases hverdict
        exact (h _ hjob).elim
      | _ => exact absurd hrunning.symm Bool.false_ne_true

/-- A run that gives up on a program has made frames that go by, none of which was a reason to stop,
and it leaves the program running. -/
theorem of_timedOut (hs : s.Candid) {limit : Value α} {n : Nat} {x : α}
    (h : (s.ask cfg (.runToEnd dt limit n)).1 = .error (.timedOut x)) :
    let k := (s.courseIn cfg (.runToEnd dt limit n)).length
    (s.ask cfg (.runToEnd dt limit n)).2 = s.frames cfg dt k ∧ k ≤ n ∧
      Unstopped cfg dt (judged? limit s.scene.clock.now) k s ∧
      (s.frames cfg dt k).running = true ∧
      expired? limit ((s.frames cfg dt k).scene.clock.now - s.scene.clock.now) =
        some (.timedOut x) := by
  obtain ⟨k, hcourse, hend⟩ := exists_of_run cfg dt (judged? limit s.scene.clock.now) n s
  have hlength : (s.courseIn cfg (.runToEnd dt limit n)).length = k := by
    rw [courseIn, hcourse, length_firstFrames]
  dsimp only
  rw [hlength]
  rw [ask_runToEnd] at h ⊢
  obtain ⟨last, hlast, hk, hgone, hrun⟩ | ⟨fault, hfault, hrun⟩ := hend
  · obtain ⟨verdict, hverdict, rfl⟩ := Option.map_eq_some_iff.mp hlast
    obtain ⟨t, htell, hsame⟩ := tell_eq verdict (s.frames cfg dt k)
    rw [hrun, htell] at h
    cases verdict with
    | ok readings => cases h
    | error fault =>
      cases h
      obtain ⟨hrunning, hexpired⟩ := (hs.frames cfg dt k).of_verdict? hverdict
      rw [hrun, htell, hsame (not_failed_of_running hrunning)]
      exact ⟨rfl, hk, hgone, hrunning, hexpired⟩
  · rw [hrun] at h
    exact absurd (Except.error.inj h) (hfault x)

/-- A request that drives a program on leads to the last of its frames, and they all go by. -/
theorem frames_of_drives {r : Request α} (hr : r.frameTime? = some dt) (hs : s.Candid)
    (h : r.Drives (s.ask cfg r).1) :
    (s.ask cfg r).2 = s.frames cfg dt (s.courseIn cfg r).length ∧
      s.Flows cfg dt (s.courseIn cfg r).length := by
  cases r with
  | frame dt' =>
    cases hr
    obtain ⟨t, hpass⟩ := exists_pass_of_ask_frame h
    refine ⟨(final_frame cfg dt s).symm, fun j hj => ?_⟩
    obtain rfl : j = 0 := Nat.lt_one_iff.mp hj
    exact ⟨t, hpass⟩
  | elapse seconds dt' n =>
    cases hr
    obtain ⟨k, hcourse, hend⟩ := exists_of_run cfg dt (arrived? (s.scene.clock.now + seconds)) n s
    have hlength : (s.courseIn cfg (.elapse seconds dt n)).length = k := by
      rw [courseIn, hcourse, length_firstFrames]
    rw [Request.Drives, ask_elapse] at h
    rw [hlength, ask_elapse]
    obtain ⟨last, hlast, -, hgone, hrun⟩ | ⟨fault, -, hrun⟩ := hend
    · obtain rfl := eq_pure_of_arrived? hlast
      rw [hrun]
      exact ⟨rfl, hgone.flows⟩
    · rw [hrun] at h
      cases h
  | runToEnd dt' limit n =>
    cases hr
    obtain ⟨x, h⟩ := h
    obtain ⟨hafter, -, hgone, -⟩ := of_timedOut hs h
    exact ⟨hafter, hgone.flows⟩
  | _ => cases hr

/-- The requests drive a program on, one after the other. -/
def Driven (cfg : Settings α) (s : Simulation α) : List (Request α) → Prop
  | [] => True
  | r :: rest => r.Drives (s.ask cfg r).1 ∧ Driven cfg (s.ask cfg r).2 rest

theorem Flows.add {m n : Nat} (hm : s.Flows cfg dt m) (hn : (s.frames cfg dt m).Flows cfg dt n) :
    s.Flows cfg dt (m + n) := by
  intro j hj
  rcases Nat.lt_or_ge j m with hlt | hge
  · exact hm j hlt
  · obtain ⟨i, rfl⟩ := Nat.exists_eq_add_of_le hge
    rw [frames_add]
    exact hn i (Nat.lt_of_add_lt_add_left hj)

/-- Requests that drive a program on lead to the last of their frames, and they all go by. -/
theorem frames_of_driven {calls : List (Request α)} (hcalls : ∀ r ∈ calls, r.frameTime? = some dt)
    (hs : s.Candid) (h : s.Driven cfg calls) :
    s.after cfg calls = s.frames cfg dt (s.course cfg calls).length ∧
      s.Flows cfg dt (s.course cfg calls).length := by
  induction calls generalizing s with
  | nil => exact ⟨rfl, fun j hj => absurd hj (Nat.not_lt_zero j)⟩
  | cons r rest ih =>
    obtain ⟨hr, hrest⟩ := List.forall_mem_cons.mp hcalls
    obtain ⟨hdrives, hdriven⟩ := h
    obtain ⟨hafter, hflows⟩ := frames_of_drives hr hs hdrives
    have hcandid : (s.ask cfg r).2.Candid := (invariant_candid cfg).ask (fun _ _ => trivial) hs
    obtain ⟨hlast, hmore⟩ := ih hrest hcandid hdriven
    rw [course, List.length_append, frames_add, ← hafter]
    exact ⟨hlast, hflows.add (hafter ▸ hmore)⟩

/-! ### Runs without a limit -/

/-- A run without a limit comes to its end with an answer, if enough frames are granted. -/
def Ends (cfg : Settings α) (dt : α) (s : Simulation α) (answer : Except (Fault α) (Reply α)) :
    Prop :=
  answer ≠ .error .outOfFrames ∧ ∃ n, (s.ask cfg (.runToEnd dt .null n)).1 = answer

/-- Without a limit it makes no difference when a run has begun. -/
theorem judged?_null (since since' : α) :
    (judged? .null since : Simulation α → _) = judged? .null since' := by
  funext s
  unfold judged? verdict?
  split <;> rfl

/-- With a program that does not run, every run has the same answer. -/
theorem exists_answer_of_not_running (cfg : Settings α) (dt : α) (h : s.running = false) :
    ∃ answer, ∀ t : Simulation α, t.job = s.job →
      ∀ n, (t.ask cfg (.runToEnd dt .null n)).1 = answer := by
  obtain ⟨verdict, hverdict⟩ := verdict?_of_not_running h
  refine ⟨verdict.map .readings, fun t ht n => ?_⟩
  have hstop : judged? .null t.scene.clock.now t = some (tell verdict) := by
    unfold judged?
    rw [hverdict t ht]
    rfl
  obtain ⟨u, htell, -⟩ := tell_eq verdict t
  rw [ask_runToEnd, framesUntil_of_stop hstop, htell]
  cases verdict <;> rfl

/-- A run of a program that runs goes through the next frame. -/
theorem answer_succ_of_pass (hrunning : s.running = true) (hpass : pass cfg dt s = .ok () t)
    (n : Nat) : (s.ask cfg (.runToEnd dt .null (n + 1))).1 =
      ((t.serve cfg).ask cfg (.runToEnd dt .null n)).1 := by
  rw [ask_runToEnd, ask_runToEnd, framesUntil_succ (judged?_of_running hrunning _),
    run_bind (frame_of_pass hpass), judged?_null s.scene.clock.now (t.serve cfg).scene.clock.now]

/-- After a frame that goes by, a run without a limit has the answer that it would have had
before. -/
theorem ends_serve_iff (hpass : pass cfg dt s = .ok () t)
    (answer : Except (Fault α) (Reply α)) :
    (t.serve cfg).Ends cfg dt answer ↔ s.Ends cfg dt answer := by
  cases hrunning : s.running with
  | true =>
    constructor
    · rintro ⟨hanswer, n, hn⟩
      exact ⟨hanswer, n + 1, (answer_succ_of_pass hrunning hpass n).trans hn⟩
    · rintro ⟨hanswer, n, hn⟩
      cases n with
      | zero =>
        rw [ask_runToEnd, framesUntil_zero (judged?_of_running hrunning _)] at hn
        exact absurd hn.symm hanswer
      | succ n => exact ⟨hanswer, n, (answer_succ_of_pass hrunning hpass n).symm.trans hn⟩
  | false =>
    have hjob := job_frame_of_not_running cfg dt hrunning
    rw [frame_of_pass hpass] at hjob
    obtain ⟨only, honly⟩ := exists_answer_of_not_running cfg dt hrunning
    have hserve := honly (t.serve cfg) hjob
    have hs := honly s rfl
    unfold Ends
    simp only [hserve, hs]

theorem ends_frames_iff {n : Nat} (h : s.Flows cfg dt n) (answer : Except (Fault α) (Reply α)) :
    (s.frames cfg dt n).Ends cfg dt answer ↔ s.Ends cfg dt answer := by
  induction n generalizing s with
  | zero => exact Iff.rfl
  | succ n ih =>
    obtain ⟨t, hpass⟩ := h 0 (Nat.succ_pos n)
    have hpass : pass cfg dt s = .ok () t := hpass
    have hrest : (t.serve cfg).Flows cfg dt n := by
      intro j hj
      rw [← frames_succ_of_pass hpass]
      exact h (j + 1) (Nat.succ_lt_succ hj)
    rw [frames_succ_of_pass hpass, ih hrest, ends_serve_iff hpass]

/-- If a frame fails while the program runs, a run fails with the same fault. -/
theorem ends_of_pass_error (hrunning : s.running = true) {fault : Fault α}
    (hpass : pass cfg dt s = .error fault t) : s.Ends cfg dt (.error fault) := by
  refine ⟨?_, 1, ?_⟩
  · rintro ⟨⟩
    exact throws_pass cfg dt _ _ _ hpass
  · rw [ask_runToEnd, framesUntil_succ (judged?_of_running hrunning _),
      run_bind_error (frame_of_pass_error hpass)]

/-- A fault of a frame, or of one in a stretch of time, is that of a run. -/
theorem ends_of_frame_error {r : Request α}
    (hr : r = .frame dt ∨ ∃ seconds n, r = .elapse seconds dt n) {fault : Fault α}
    (h : (s.ask cfg r).1 = .error fault) (hfault : fault ≠ .outOfFrames)
    (hrunning : (s.ask cfg r).2.running = true) : s.Ends cfg dt (.error fault) := by
  obtain rfl | ⟨seconds, n, rfl⟩ := hr
  · cases hpass : pass cfg dt s with
    | ok _ t =>
      rw [ask_frame hpass] at h
      cases h
    | error fault' t =>
      rw [ask_frame_error hpass] at h hrunning
      cases h
      exact ends_of_pass_error
        ((running_congr (passed_of_pass_error hpass).job).symm.trans hrunning) hpass
  · rw [ask_elapse] at h hrunning
    obtain ⟨k, -, hgone, hend⟩ :=
      exists_of_framesUntil cfg dt (arrived? (s.scene.clock.now + seconds)) n s
    obtain ⟨last, hlast, hrun⟩ | ⟨-, -, hrun⟩ | ⟨-, -, fault', t, hpass, hrun⟩ := hend
    · obtain rfl := eq_pure_of_arrived? hlast
      rw [hrun] at h
      cases h
    · rw [hrun] at h
      exact absurd (Except.error.inj h).symm hfault
    · rw [hrun] at h hrunning
      cases h
      have hnow : (s.frames cfg dt k).running = true :=
        (running_congr (passed_of_pass_error hpass).job).symm.trans hrunning
      exact (ends_frames_iff hgone.flows _).mp (ends_of_pass_error hnow hpass)

/-! ### Runs that give up -/

/-- Whether the time of a run is over, by the number that its limit is. -/
theorem expired?_of_number {limit : Value α} {number : Number α} (h : limit.number? = .ok number)
    (elapsed : α) :
    expired? limit elapsed =
      if number.atMost elapsed then
        match number.scalar? with
        | .ok x => some (.timedOut x)
        | .error fault => some fault
      else none := by
  unfold expired?
  split
  · cases h
  · cases hscalar : number.scalar? <;> simp only [h, hscalar]

theorem expired?_eq_timedOut_iff {limit : Value α} {elapsed x : α} :
    expired? limit elapsed = some (.timedOut x) ↔
      ∃ number, limit.number? = .ok number ∧ number.scalar? = .ok x ∧
        number.atMost elapsed = true := by
  cases hnumber : limit.number? with
  | error fault =>
    refine ⟨fun h => ?_, fun ⟨number, hnone, _⟩ => nomatch hnone⟩
    -- a limit that is no number has a fault of its own
    have hown := limit.fails_number? fault hnumber
    unfold expired? at h
    split at h
    · cases h
    · rw [hnumber] at h
      cases h
      exact hown.elim
  | ok number =>
    rw [expired?_of_number hnumber]
    cases hover : number.atMost elapsed with
    | false =>
      refine ⟨nofun, ?_⟩
      rintro ⟨_, ⟨⟩, -, htrue⟩
      exact absurd (hover.symm.trans htrue) Bool.false_ne_true
    | true =>
      rw [if_pos rfl]
      cases hscalar : number.scalar? with
      | ok limit =>
        constructor
        · rintro ⟨⟩
          exact ⟨number, rfl, hscalar, hover⟩
        · rintro ⟨_, ⟨⟩, hx, -⟩
          rw [hscalar] at hx
          cases hx
          rfl
      | error fault =>
        constructor
        · rintro ⟨⟩
          exact (number.fails_scalar? _ hscalar).elim
        · rintro ⟨_, ⟨⟩, hx, -⟩
          rw [hscalar] at hx
          cases hx

theorem expired?_eq_none_iff {limit : Value α} {number : Number α}
    (h : limit.number? = .ok number) {elapsed : α} :
    expired? limit elapsed = none ↔ number.atMost elapsed = false := by
  rw [expired?_of_number h]
  cases number.atMost elapsed with
  | false => exact ⟨fun _ => rfl, fun _ => rfl⟩
  | true =>
    rw [if_pos rfl]
    refine ⟨fun hnone => ?_, nofun⟩
    split at hnone <;> cases hnone

/-- A run gives up on a program because its time is over exactly if, frames going by, the program
still runs when the time since the beginning of the run has first reached the limit. -/
theorem timedOut_iff (hs : s.Candid) {limit : Value α} {n : Nat} {x : α} :
    (s.ask cfg (.runToEnd dt limit n)).1 = .error (.timedOut x) ↔
      ∃ number, limit.number? = .ok number ∧ number.scalar? = .ok x ∧ ∃ k ≤ n,
        s.Flows cfg dt k ∧ (s.frames cfg dt k).running = true ∧
          (∀ j < k, number.atMost ((s.frames cfg dt j).scene.clock.now - s.scene.clock.now) =
            false) ∧
          number.atMost ((s.frames cfg dt k).scene.clock.now - s.scene.clock.now) = true := by
  constructor
  · intro h
    obtain ⟨-, hk, hgone, hrunning, hexpired⟩ := of_timedOut hs h
    obtain ⟨number, hnumber, hscalar, hover⟩ := expired?_eq_timedOut_iff.mp hexpired
    refine ⟨number, hnumber, hscalar, _, hk, hgone.flows, hrunning, fun j hj => ?_, hover⟩
    have hearlier := running_frames_of_le (Nat.le_of_lt hj) hrunning
    have hnone := Option.map_eq_none_iff.mp (hgone j hj).1
    rw [verdict?_of_running hearlier] at hnone
    exact (expired?_eq_none_iff hnumber).mp (Option.map_eq_none_iff.mp hnone)
  · rintro ⟨number, hnumber, hscalar, k, hk, hflows, hrunning, hbefore, hover⟩
    obtain ⟨m, rfl⟩ := Nat.exists_eq_add_of_le hk
    have hgone : Unstopped cfg dt (judged? limit s.scene.clock.now) k s := by
      refine fun j hj => ⟨?_, hflows j hj⟩
      unfold judged?
      rw [verdict?_of_running (running_frames_of_le (Nat.le_of_lt hj) hrunning),
        (expired?_eq_none_iff hnumber).mpr (hbefore j hj)]
      rfl
    have hstop : judged? limit s.scene.clock.now (s.frames cfg dt k) =
        some (tell (.error (.timedOut x))) := by
      unfold judged?
      rw [verdict?_of_running hrunning,
        expired?_eq_timedOut_iff.mpr ⟨number, hnumber, hscalar, hover⟩]
      rfl
    obtain ⟨t, htell, -⟩ := tell_eq
      (.error (.timedOut x) : Except (Fault α) (List (Value α))) (s.frames cfg dt k)
    rw [ask_runToEnd, framesUntil_add hgone, framesUntil_of_stop hstop, htell]
    rfl

/-! ### The start of a program and what follows -/

/-- It makes no difference who drives a program on. Whatever lets frames of one length pass after
its start: as long as the program has not come to its end, the simulation after the `k`-th frame is
the one after so many frames made one by one, and it comes to its end in the same frame. After
requests that drive it on, a run without a limit has the answer that it would have had from the
start, and a frame that fails then would have failed in that run. A run that gives up because its
time is over leaves the program running, after frames that are made one by one; it gives up exactly
if the program still runs when the time since the beginning of the run has reached the limit. -/
theorem driving_makes_no_difference (cfg : Settings α) (dt : α) (hidle : s.running = false)
    (commands : List (Command α)) {calls : List (Request α)}
    (hcalls : ∀ r ∈ calls, r.frameTime? = some dt) :
    let started := (s.ask cfg (.start commands)).2
    let now := started.after cfg calls
    (∀ k t, (started.course cfg calls)[k]? = some t → (started.frames cfg dt k).running = true →
      t = started.frames cfg dt (k + 1)) ∧
    (∀ k t, (started.course cfg calls)[k]? = some t →
      ((∀ j < k, ∀ u, (started.course cfg calls)[j]? = some u → u.running = true) ∧
          t.running = false ↔
        (started.frames cfg dt k).running = true ∧
          (started.frames cfg dt (k + 1)).running = false)) ∧
    (started.Driven cfg calls →
      now = started.frames cfg dt (started.course cfg calls).length ∧
      (∀ answer, now.Ends cfg dt answer ↔ started.Ends cfg dt answer) ∧
      ∀ r, (r = .frame dt ∨ ∃ seconds n, r = .elapse seconds dt n) → ∀ fault,
        (now.ask cfg r).1 = .error fault → fault ≠ .outOfFrames →
        (now.ask cfg r).2.running = true → started.Ends cfg dt (.error fault)) ∧
    ∀ limit n x,
      ((now.ask cfg (.runToEnd dt limit n)).1 = .error (.timedOut x) →
        (now.ask cfg (.runToEnd dt limit n)).2 =
            now.frames cfg dt (now.courseIn cfg (.runToEnd dt limit n)).length ∧
          (now.ask cfg (.runToEnd dt limit n)).2.running = true) ∧
      ((now.ask cfg (.runToEnd dt limit n)).1 = .error (.timedOut x) ↔
        ∃ number, limit.number? = .ok number ∧ number.scalar? = .ok x ∧ ∃ k ≤ n,
          now.Flows cfg dt k ∧ (now.frames cfg dt k).running = true ∧
          (∀ j < k, number.atMost ((now.frames cfg dt j).scene.clock.now - now.scene.clock.now) =
            false) ∧
          number.atMost ((now.frames cfg dt k).scene.clock.now - now.scene.clock.now) = true) := by
  intro started now
  have hjob : started.job = some (.fresh commands) := by
    show (s.ask cfg (.start commands)).2.job = _
    rw [ask_start cfg hidle commands]
  have hrunning : started.running = true := by
    unfold running
    rw [hjob]
    rfl
  have hstarted : started.Candid := candid_of_job hjob trivial
  have hnow : now.Candid := (invariant_candid cfg).after (fun _ _ _ _ => trivial) hstarted
  refine ⟨fun k t hframe => frames_of_course hcalls hframe,
    fun k t hframe => finishes_at_frame hcalls hrunning hframe, fun hdriven => ?_,
    fun limit n x => ⟨fun htimed => ?_, timedOut_iff hnow⟩⟩
  · obtain ⟨hafter, hflows⟩ := frames_of_driven hcalls hstarted hdriven
    have hends : ∀ answer, now.Ends cfg dt answer ↔ started.Ends cfg dt answer := by
      rw [show now = _ from hafter]
      exact ends_frames_iff hflows
    exact ⟨hafter, hends, fun r hr fault hfault hframes hlast =>
      (hends _).mp (ends_of_frame_error hr hfault hframes hlast)⟩
  · obtain ⟨hafter, -, -, hlast, -⟩ := of_timedOut hnow htimed
    exact ⟨hafter, hafter ▸ hlast⟩

/-- With the built-in settings a run whose time is over at once leaves the program as it was
started, and a frame after it is the first one. -/
theorem driving_makes_no_difference_standard :
    let cfg : Settings ℝ := .standard
    let s := new cfg []
    let commands : List (Command ℝ) := [.openGripper, .moveJoint 1 30]
    let calls : List (Request ℝ) := [.runToEnd (1 / 60) (.real 0) 5, .frame (1 / 60)]
    let started := (s.ask cfg (.start commands)).2
    s.running = false ∧ (∀ r ∈ calls, r.frameTime? = some (1 / 60)) ∧ started.Driven cfg calls ∧
      started.after cfg calls = started.frames cfg (1 / 60) 1 ∧
      ∀ answer, (started.after cfg calls).Ends cfg (1 / 60) answer ↔
        started.Ends cfg (1 / 60) answer := by
  intro cfg s commands calls started
  have hidle : s.running = false := rfl
  have hcalls : ∀ r ∈ calls, r.frameTime? = some (1 / 60) := by
    intro r hr
    simp only [calls, List.mem_cons, List.not_mem_nil, or_false] at hr
    rcases hr with rfl | rfl <;> rfl
  have hover : (Number.real (0 : ℝ)).atMost
      (started.scene.clock.now - started.scene.clock.now) = true := by
    rw [Number.atMost_real]
    simp [Number.value]
  have hstop : judged? (.real 0) started.scene.clock.now started =
      some (tell (.error (.timedOut 0))) := by
    unfold judged?
    rw [verdict?_of_running rfl, expired?_eq_timedOut_iff.mpr ⟨.real 0, rfl, rfl, hover⟩]
    rfl
  have hrun : started.ask cfg (.runToEnd (1 / 60) (.real 0) 5) =
      (.error (.timedOut 0), started) := by
    rw [ask_runToEnd, framesUntil_of_stop hstop]
    rfl
  obtain ⟨t, hpass⟩ : ∃ t, pass cfg (1 / 60) started = .ok () t :=
    smooth_of_steady Settings.steady_standard _ ⟨rfl, ⟨_, rfl⟩⟩ 0 rfl
  have hdriven : started.Driven cfg calls := by
    refine ⟨⟨0, by rw [hrun]⟩, ?_⟩
    rw [hrun]
    exact ⟨by rw [ask_frame hpass]; rfl, trivial⟩
  have hlength : (started.course cfg calls).length = 1 := by
    have hnone : started.courseIn cfg (.runToEnd (1 / 60) (.real 0) 5) = [] :=
      courseUntil_of_stop hstop 5
    rw [course, hnone]
    rfl
  obtain ⟨-, -, hon, -⟩ := driving_makes_no_difference cfg (1 / 60) hidle commands hcalls
  obtain ⟨hafter, hends, -⟩ := hon hdriven
  rw [show (s.ask cfg (.start commands)).2 = started from rfl, hlength] at hafter
  exact ⟨hidle, hcalls, hdriven, hafter, hends⟩

end Simulation

end ArmRover
