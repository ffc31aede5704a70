import ArmRover.Proofs.Simulation.Bystander
import Mathlib.Data.List.Chain

/-!
# One program at a time

A simulation knows its last program only, so whether an earlier one was left unfinished does not
show in its state. An account of the programs that it has let go of shows it. With this account, and
at every moment, also within a frame: at most one program is unfinished and at most one wait is
open. A request that is turned down leaves nothing behind.

* `Simulation.duringFrame`, `Simulation.during` — the moments of a frame, and of a request.
* `Moment` — a simulation with the programs that it has let go of, `Moment.history` — the moments of
  requests.
* `Simulation.Marks` — from the moments of a frame to those of a request.
* `Simulation.Still` — what holds of every moment of a request, `Simulation.still_during`.
* `Moment.Sound` — what holds between requests, `Moment.Sound.next`.
* `one_program` — sequences of requests.
-/

namespace ArmRover

variable {α : Type} [Scalar α]

open ArmRover.Action

namespace Simulation

/-! ### Moments -/

/-- The moments of the release of waits, at most so many times: after each release, and after the
program has run on. -/
def duringSettle (cfg : Settings α) : Nat → Simulation α → List (Simulation α)
  | 0, _ => []
  | n + 1, s =>
    s.released :: match s.wake cfg with
      | (0, t) => [t]
      | (_ + 1, t) => t :: duringSettle cfg n t

/-- The moments of one frame: after the first half, after a program has started or taken notice of
its cancellation, and those of the release of waits. -/
def duringFrame (cfg : Settings α) (dt : α) (s : Simulation α) : List (Simulation α) :=
  match pass cfg dt s with
  | .ok _ t =>
    let u := t.runReady cfg
    t :: u :: duringSettle cfg (u.sleepsLeft cfg + 2) u
  | .error _ t => [t]

/-- The moments of a run to the end of the program. -/
def duringRun (cfg : Settings α) (dt : α) (limit : Value α) (since : α) :
    Nat → Simulation α → List (Simulation α)
  | 0, _ => []
  | frames + 1, s =>
    match s.verdict? limit since with
    | some _ => []
    | none =>
      s.duringFrame cfg dt ++ match frame cfg dt s with
        | .ok _ t => duringRun cfg dt limit since frames t
        | .error .. => []

/-- The moments of a run to a time. -/
def duringTo (cfg : Settings α) (dt finish : α) : Nat → Simulation α → List (Simulation α)
  | 0, _ => []
  | frames + 1, s =>
    if s.before finish then
      s.duringFrame cfg dt ++ match frame cfg dt s with
        | .ok _ t => duringTo cfg dt finish frames t
        | .error .. => []
    else []

/-- The moments of a request before its end. Only those that let time pass have any. -/
def during (cfg : Settings α) (s : Simulation α) : Request α → List (Simulation α)
  | .frame dt => s.duringFrame cfg dt
  | .elapse seconds dt frames => s.duringTo cfg dt (s.scene.clock.now + seconds) frames
  | .runToEnd dt limit frames => s.duringRun cfg dt limit s.scene.clock.now frames
  | .start _ | .startText _ | .switchTo _ | .cancel | .reset => []

theorem getLast?_duringSettle (cfg : Settings α) (n : Nat) (s : Simulation α) :
    (s.duringSettle cfg (n + 1)).getLast? = some (s.settle cfg (n + 1)) := by
  induction n generalizing s with
  | zero =>
    rw [duringSettle, settle]
    generalize s.wake cfg = woken
    obtain ⟨released, t⟩ := woken
    cases released <;> rfl
  | succ n ih =>
    rw [duringSettle, settle]
    generalize s.wake cfg = woken
    obtain ⟨released, t⟩ := woken
    cases released with
    | zero => rfl
    | succ released =>
      show (s.released :: t :: duringSettle cfg (n + 1) t).getLast? = some (settle cfg (n + 1) t)
      rw [List.getLast?_cons_cons, List.getLast?_cons, ih t]
      rfl

/-- A frame ends with the last of its moments. -/
theorem getLast?_duringFrame (cfg : Settings α) (dt : α) (s : Simulation α) :
    (s.duringFrame cfg dt).getLast? = some (final (frame cfg dt s)) := by
  unfold duringFrame
  cases hpass : pass cfg dt s with
  | ok _ t =>
    rw [frame_of_pass hpass]
    dsimp only
    rw [List.getLast?_cons_cons, List.getLast?_cons, getLast?_duringSettle]
    rfl
  | error fault t =>
    rw [frame_eq, run_bind_error hpass]
    rfl

/-- What holds at the moments of single frames, as long as frames keep something else, holds at the
moments of every request. -/
structure Marks (cfg : Settings α) (I M : Simulation α → Prop) : Prop where
  frame (dt : α) : Preserves I (frame cfg dt)
  during (dt : α) {s : Simulation α} : I s → ∀ t ∈ s.duringFrame cfg dt, M t

section Marks

variable {cfg : Settings α} {I M : Simulation α → Prop} {s : Simulation α}

/-- The moments of a frame and of what follows it, if it does not fail. -/
theorem Marks.frame_append (h : Marks cfg I M) (dt : α) (hs : I s)
    {next : Simulation α → List (Simulation α)} (hnext : ∀ t, I t → ∀ u ∈ next t, M u) :
    ∀ u ∈ s.duringFrame cfg dt ++ (match Simulation.frame cfg dt s with
      | .ok _ t => next t
      | .error .. => []), M u := by
  refine List.forall_mem_append.mpr ⟨h.during dt hs, ?_⟩
  have hframe := h.frame dt s hs
  cases hrun : Simulation.frame cfg dt s with
  | ok _ t =>
    rw [hrun] at hframe
    exact hnext t hframe
  | error fault t => exact List.forall_mem_nil _

theorem Marks.duringRun (h : Marks cfg I M) (dt : α) (limit : Value α) (since : α) (frames : Nat)
    (hs : I s) : ∀ t ∈ s.duringRun cfg dt limit since frames, M t := by
  induction frames generalizing s with
  | zero => exact List.forall_mem_nil _
  | succ frames ih =>
    unfold Simulation.duringRun
    split
    · exact List.forall_mem_nil _
    · exact h.frame_append dt hs fun t ht => ih ht

theorem Marks.duringTo (h : Marks cfg I M) (dt finish : α) (frames : Nat) (hs : I s) :
    ∀ t ∈ s.duringTo cfg dt finish frames, M t := by
  induction frames generalizing s with
  | zero => exact List.forall_mem_nil _
  | succ frames ih =>
    unfold Simulation.duringTo
    split
    · exact h.frame_append dt hs fun t ht => ih ht
    · exact List.forall_mem_nil _

theorem Marks.request (h : Marks cfg I M) (r : Request α) (hs : I s) :
    ∀ t ∈ s.during cfg r, M t := by
  cases r with
  | frame dt => exact h.during dt hs
  | elapse seconds dt frames => exact h.duringTo dt _ frames hs
  | runToEnd dt limit frames => exact h.duringRun dt limit _ frames hs
  | _ => exact List.forall_mem_nil _

end Marks

/-! ### The active robot -/

theorem active_home (rig : Rig α) (s : Station α) : (s.home rig).active = s.active := by
  unfold Station.home
  split <;> rfl

theorem preserves_active_run (cfg : Settings α) (active : Robot) (commands : List (Command α))
    (steps : List (Step α)) (readings : List (Value α)) :
    Preserves (fun t : Scene α => t.station.active = active)
      (Execution.run cfg commands steps readings) :=
  fun t ht =>
    (Execution.preserves_run cfg commands steps readings t (.refl t.station)).active.trans ht

theorem preserves_active_begin (cfg : Settings α) (active : Robot) (commands : List (Command α)) :
    Preserves (fun t : Scene α => t.station.active = active) (Execution.begin cfg commands) := by
  refine preserves_bind preserves_get fun _ => ?_
  refine preserves_bind (preserves_modify fun t ht => (active_home _ t.station).trans ht)
    fun _ => ?_
  exact preserves_active_run cfg active _ _ _

/-! ### One request -/

/-- What holds of every moment of a request: the same robot is active, and at most one wait is
open. -/
def Still (active : Robot) (s : Simulation α) : Prop :=
  s.scene.station.active = active ∧ s.scene.clock.pending ≤ 1

omit [Scalar α] in
theorem Orderly.still {s : Simulation α} (h : s.Orderly) : s.Still s.scene.station.active := by
  refine ⟨rfl, ?_⟩
  unfold Clock.pending
  by_cases hjob : ∃ ticket rest, s.job = some (.waiting ticket rest)
  · obtain ⟨ticket, rest, hjob⟩ := hjob
    obtain ⟨due, since, hwaits⟩ := h.of_waiting hjob
    rw [hwaits]
    exact Nat.le_refl 1
  · rw [h.of_not_waiting fun ticket rest hwaiting => hjob ⟨ticket, rest, hwaiting⟩]
    exact Nat.zero_le 1

/-- Releasing waits opens none. -/
theorem Still.released {active : Robot} {s : Simulation α} (h : s.Still active) :
    s.released.Still active :=
  ⟨h.1, Nat.le_trans (List.length_filter_le _ _) h.2⟩

theorem active_wake (cfg : Settings α) (s : Simulation α) :
    (s.wake cfg).2.scene.station.active = s.scene.station.active :=
  wake_preserves (P := fun t => t.station.active = s.scene.station.active) cfg (fun _ ht => ht)
    (fun _ => preserves_active_run cfg _ _ _ _) rfl

theorem active_runReady (cfg : Settings α) (s : Simulation α) :
    (s.runReady cfg).scene.station.active = s.scene.station.active := by
  unfold runReady
  split
  · exact advanceJob_preserves (P := fun t => t.station.active = s.scene.station.active)
      (preserves_active_begin cfg _ _) rfl
  · rfl
  · rfl

theorem still_duringSettle (cfg : Settings α) (n : Nat) {s : Simulation α} (h : s.Orderly) :
    ∀ t ∈ s.duringSettle cfg n, t.Still s.scene.station.active := by
  induction n generalizing s with
  | zero => exact List.forall_mem_nil _
  | succ n ih =>
    have hwake := h.wake cfg
    have hactive := active_wake cfg s
    have hstill : (s.wake cfg).2.Still s.scene.station.active := hactive ▸ hwake.still
    unfold duringSettle
    refine List.forall_mem_cons.mpr ⟨h.still.released, ?_⟩
    split
    · next t hrun =>
      rw [hrun] at hstill
      exact List.forall_mem_singleton.mpr hstill
    · next t hrun =>
      rw [hrun] at hwake hactive hstill
      refine List.forall_mem_cons.mpr ⟨hstill, fun u hu => ?_⟩
      exact hactive ▸ ih hwake u hu

theorem still_duringFrame (cfg : Settings α) (dt : α) {s : Simulation α} (h : s.Orderly) :
    ∀ t ∈ s.duringFrame cfg dt, t.Still s.scene.station.active := by
  have hpassed := passed cfg dt s
  have hend : (final (pass cfg dt s)).Orderly := by
    refine h.congr ?_ hpassed.job
    rw [hpassed.clock]
    rfl
  have hactive := hpassed.station.active
  unfold duringFrame
  cases hpass : pass cfg dt s with
  | error fault t =>
    rw [hpass] at hend hactive
    exact List.forall_mem_singleton.mpr (hactive ▸ hend.still)
  | ok _ t =>
    rw [hpass] at hend hactive
    have hready := (active_runReady cfg t).trans hactive
    have horderly := hend.runReady cfg
    refine List.forall_mem_cons.mpr ⟨hactive ▸ hend.still, ?_⟩
    refine List.forall_mem_cons.mpr ⟨hready ▸ horderly.still, fun u hu => ?_⟩
    exact hready ▸ still_duringSettle cfg _ horderly u hu

/-- A frame keeps order, and the active robot. -/
theorem frame_keeps (cfg : Settings α) (dt : α) {s : Simulation α} (h : s.Orderly) :
    (final (frame cfg dt s)).Orderly ∧
      (final (frame cfg dt s)).scene.station.active = s.scene.station.active :=
  ⟨preserves_frame cfg dt s h,
    (still_duringFrame cfg dt h _ (List.mem_of_getLast? (getLast?_duringFrame cfg dt s))).1⟩

theorem marks_still (cfg : Settings α) (active : Robot) :
    Marks cfg (fun s => s.Orderly ∧ s.scene.station.active = active) (Still active) where
  frame dt _ h := ⟨(frame_keeps cfg dt h.1).1, (frame_keeps cfg dt h.1).2.trans h.2⟩
  during dt _ h := h.2 ▸ still_duringFrame cfg dt h.1

theorem still_during (cfg : Settings α) {s : Simulation α} (h : s.Orderly) (r : Request α) :
    ∀ t ∈ s.during cfg r, t.Still s.scene.station.active :=
  (marks_still cfg _).request r ⟨h, rfl⟩

/-! ### Program texts -/

section Texts

variable {text : String} {command : Command α} {rest : List (Command α)} {s : Simulation α}

theorem ask_startText_of_error (cfg : Settings α) {fault : Fault α}
    (h : Program.commands? false text.toList = .error fault) :
    s.ask cfg (.startText text) = (.error fault, s) := by
  unfold ask carryOut startText
  dsimp only
  rw [h]
  rfl

theorem ask_startText_of_nil (cfg : Settings α)
    (h : (Program.commands? false text.toList : Except (Fault α) (List (Command α))) = .ok []) :
    s.ask cfg (.startText text) = (.ok (.commands []), s) := by
  unfold ask carryOut startText
  dsimp only
  rw [h]
  rfl

theorem ask_startText_of_running (cfg : Settings α) (hrunning : s.running = true)
    (h : Program.commands? false text.toList = .ok (command :: rest)) :
    s.ask cfg (.startText text) = (.error .alreadyRunning, s) := by
  have hstart : start (command :: rest) s = .error .alreadyRunning s := by
    unfold start
    rw [run_get_bind, hrunning]
    rfl
  have hrun : carryOut cfg (.startText text) s = .error .alreadyRunning s := by
    unfold carryOut startText
    dsimp only
    rw [h]
    have hinner := run_bind_error (f := fun _ => pure (command :: rest)) hstart
    exact run_bind_error hinner
  unfold ask
  rw [hrun]

theorem ask_startText (cfg : Settings α) (hrunning : s.running = false)
    (h : Program.commands? false text.toList = .ok (command :: rest)) :
    s.ask cfg (.startText text) =
      (.ok (.commands (command :: rest)), { s with job := some (.fresh (command :: rest)) }) := by
  have hstart : start (command :: rest) s =
      .ok () { s with job := some (.fresh (command :: rest)) } := by
    unfold start
    rw [run_get_bind, hrunning]
    rfl
  refine ask_of_carryOut ?_
  unfold carryOut startText
  dsimp only
  rw [h]
  refine run_bind (b := command :: rest) ?_
  exact run_bind hstart

end Texts

end Simulation

/-! ### Accounts -/

/-- What becomes of a program that is stopped: it is cancelled, unless it has come to its end. -/
def Job.stopped (job : Job α) : Job α := if job.running then .cancelled else job

omit [Scalar α] in
theorem Job.running_stopped (job : Job α) : job.stopped.running = false := by
  unfold stopped
  split
  · rfl
  · next h => exact Bool.eq_false_of_not_eq_true h

/-- A simulation, and the programs that it has let go of, as they were then. -/
structure Moment (α : Type) where
  past : List (Job α)
  now : Simulation α

namespace Moment

/-- The number of programs that have not come to their end. -/
def unfinished (m : Moment α) : Nat := (m.past ++ m.now.job.toList).countP Job.running

/-- The program that a simulation lets go of for a request. A new program takes the place of the
last one, as it is. A reset waits for the last one to be cancelled. -/
def dropped (s : Simulation α) : Request α → Except (Fault α) (Reply α) → List (Job α)
  | .start _, .ok _ => s.job.toList
  | .startText _, .ok (.commands (_ :: _)) => s.job.toList
  | .reset, _ => (s.job.map Job.stopped).toList
  | _, _ => []

/-- The moment after a request. -/
def next (cfg : Settings α) (m : Moment α) (r : Request α) : Moment α :=
  ⟨m.past ++ dropped m.now r (m.now.ask cfg r).1, (m.now.ask cfg r).2⟩

/-- The moments of requests, one after the other. -/
def history (cfg : Settings α) (m : Moment α) : List (Request α) → List (Moment α)
  | [] => [m]
  | r :: rest =>
    (m :: (m.now.during cfg r).map fun s => ⟨m.past, s⟩) ++ history cfg (m.next cfg r) rest

theorem head?_history (cfg : Settings α) (m : Moment α) (requests : List (Request α)) :
    (m.history cfg requests).head? = some m := by
  cases requests <;> rfl

/-- The last moment is what the requests lead to. -/
theorem exists_getLast?_history (cfg : Settings α) (m : Moment α) (requests : List (Request α)) :
    ∃ past, (m.history cfg requests).getLast? = some ⟨past, m.now.after cfg requests⟩ := by
  induction requests generalizing m with
  | nil => exact ⟨m.past, rfl⟩
  | cons r rest ih =>
    obtain ⟨past, hlast⟩ := ih (m.next cfg r)
    exact ⟨past, by rw [history, List.getLast?_append, hlast]; rfl⟩

/-- What holds between requests: every program that the simulation has let go of has come to its
end, and every open wait is that of the last one. -/
structure Sound (m : Moment α) : Prop where
  past : ∀ job ∈ m.past, job.running = false
  orderly : m.now.Orderly
  dedicated : m.now.Dedicated

omit [Scalar α] in
/-- Programs that have come to their end do not count. -/
theorem unfinished_eq {past : List (Job α)} (h : ∀ job ∈ past, job.running = false)
    (s : Simulation α) : unfinished ⟨past, s⟩ = s.job.toList.countP Job.running := by
  have hpast : past.countP Job.running = 0 :=
    List.countP_eq_zero.mpr fun job hjob => by rw [h job hjob]; exact Bool.false_ne_true
  unfold unfinished
  rw [List.countP_append, hpast, Nat.zero_add]

omit [Scalar α] in
theorem unfinished_le_one {past : List (Job α)} (h : ∀ job ∈ past, job.running = false)
    (s : Simulation α) : unfinished ⟨past, s⟩ ≤ 1 := by
  rw [unfinished_eq h]
  refine Nat.le_trans List.countP_le_length ?_
  cases s.job with
  | none => exact Nat.zero_le 1
  | some job => exact Nat.le_refl 1

omit [Scalar α] in
theorem running_of_unfinished {past : List (Job α)} (h : ∀ job ∈ past, job.running = false)
    {s : Simulation α} (hs : 0 < unfinished ⟨past, s⟩) : s.running = true := by
  rw [unfinished_eq h] at hs
  obtain ⟨job, hmem, hjob⟩ := List.countP_pos_iff.mp hs
  rw [Option.mem_toList] at hmem
  unfold Simulation.running
  rw [hmem]
  exact hjob

/-- What a simulation lets go of has come to its end. -/
theorem running_of_mem_dropped (cfg : Settings α) (s : Simulation α) (r : Request α) :
    ∀ job ∈ dropped s r (s.ask cfg r).1, job.running = false := by
  have hlast : s.running = false → ∀ job ∈ s.job.toList, job.running = false := by
    intro hrunning job hmem
    rw [Option.mem_toList] at hmem
    unfold Simulation.running at hrunning
    rw [hmem] at hrunning
    exact hrunning
  cases r with
  | start commands =>
    cases hrunning : s.running with
    | true =>
      rw [Simulation.ask_start_of_running cfg hrunning]
      exact List.forall_mem_nil _
    | false =>
      rw [Simulation.ask_start cfg hrunning]
      exact hlast hrunning
  | startText text =>
    cases hread : (Program.commands? false text.toList : Except (Fault α) _) with
    | error fault =>
      rw [Simulation.ask_startText_of_error cfg hread]
      exact List.forall_mem_nil _
    | ok commands =>
      cases commands with
      | nil =>
        rw [Simulation.ask_startText_of_nil cfg hread]
        exact List.forall_mem_nil _
      | cons command rest =>
        cases hrunning : s.running with
        | true =>
          rw [Simulation.ask_startText_of_running cfg hrunning hread]
          exact List.forall_mem_nil _
        | false =>
          rw [Simulation.ask_startText cfg hrunning hread]
          exact hlast hrunning
  | reset =>
    intro job hmem
    obtain ⟨last, -, rfl⟩ := Option.map_eq_some_iff.mp (Option.mem_toList.mp hmem)
    exact last.running_stopped
  | _ => exact List.forall_mem_nil _

theorem Sound.next (cfg : Settings α) {m : Moment α} (h : m.Sound) (r : Request α) :
    (m.next cfg r).Sound where
  past := List.forall_mem_append.mpr ⟨h.past, running_of_mem_dropped cfg m.now r⟩
  orderly := h.orderly.ask cfg r
  dedicated := h.dedicated.ask cfg r

theorem sound_new (cfg : Settings α) (world : World α) : Sound ⟨[], .new cfg world⟩ where
  past := List.forall_mem_nil _
  orderly := Simulation.orderly_of_not_waiting nofun rfl
  dedicated := Simulation.dedicated_of_not_running rfl

/-! ### Every moment -/

theorem single_of_mem_history (cfg : Settings α) {m : Moment α} (h : m.Sound)
    (requests : List (Request α)) :
    ∀ x ∈ m.history cfg requests, x.unfinished ≤ 1 ∧ x.now.scene.clock.pending ≤ 1 := by
  have hfirst : m.unfinished ≤ 1 ∧ m.now.scene.clock.pending ≤ 1 :=
    ⟨unfinished_le_one h.past m.now, h.orderly.still.2⟩
  induction requests generalizing m with
  | nil => exact List.forall_mem_singleton.mpr hfirst
  | cons r rest ih =>
    refine List.forall_mem_append.mpr ⟨List.forall_mem_cons.mpr ⟨hfirst, ?_⟩, ?_⟩
    · refine List.forall_mem_map.mpr fun s hs => ⟨unfinished_le_one h.past s, ?_⟩
      exact (Simulation.still_during cfg h.orderly r s hs).2
    · have hnext := h.next cfg r
      exact ih hnext ⟨unfinished_le_one hnext.past _, hnext.orderly.still.2⟩

/-- While a program is unfinished, no request makes another robot active. -/
theorem active_next (cfg : Settings α) {m : Moment α} (h : m.Sound) (r : Request α)
    (hlocked : r.switches = true → m.now.running = true) :
    (m.next cfg r).now.scene.station.active = m.now.scene.station.active := by
  show (m.now.ask cfg r).2.scene.station.active = _
  cases hr : r.switches with
  | false => exact (h.dedicated.echoes.ask cfg hr).2.scene.station.active_left
  | true =>
    obtain ⟨name, rfl⟩ := Request.exists_switchTo hr
    rw [Simulation.ask_switchTo_of_running cfg (hlocked hr)]

theorem locked_history (cfg : Settings α) {m : Moment α} (h : m.Sound)
    (requests : List (Request α)) :
    (m.history cfg requests).IsChain fun x y =>
      0 < x.unfinished → y.now.scene.station.active = x.now.scene.station.active := by
  induction requests generalizing m with
  | nil => exact .singleton m
  | cons r rest ih =>
    -- all moments of the request but its end have the active robot of its beginning
    have hactive : ∀ x ∈ m :: (m.now.during cfg r).map fun s => Moment.mk m.past s,
        x.now.scene.station.active = m.now.scene.station.active ∧ x.past = m.past := by
      refine List.forall_mem_cons.mpr ⟨⟨rfl, rfl⟩, List.forall_mem_map.mpr fun s hs => ⟨?_, rfl⟩⟩
      exact (Simulation.still_during cfg h.orderly r s hs).1
    refine List.isChain_append.mpr ⟨?_, ih (h.next cfg r), ?_⟩
    · refine List.Pairwise.isChain (List.pairwise_of_forall_mem_list fun x hx y hy _ => ?_)
      exact (hactive y hy).1.trans (hactive x hx).1.symm
    · intro x hx y hy hunfinished
      have hmem := List.mem_of_getLast? hx
      rw [head?_history, Option.mem_some_iff] at hy
      subst hy
      obtain ⟨hxactive, hxpast⟩ := hactive x hmem
      rw [hxactive]
      refine active_next cfg h r fun hswitch => ?_
      -- a request for another robot has no moments but its beginning
      obtain ⟨name, rfl⟩ := Request.exists_switchTo hswitch
      cases List.mem_singleton.mp hmem
      exact running_of_unfinished h.past hunfinished

end Moment

/-! ### Requests that are turned down -/

/-- Whether a request for a program or for another robot comes to nothing: it fails, or the text
holds no commands. -/
def Request.declined : Request α → Except (Fault α) (Reply α) → Bool
  | .start _, .error _ | .startText _, .error _ | .switchTo _, .error _ => true
  | .startText _, .ok (.commands []) => true
  | _, _ => false

namespace Simulation

theorem ask_switchTo_of_not_running (cfg : Settings α) {s : Simulation α} (h : s.running = false)
    (name : String) :
    s.ask cfg (.switchTo name) =
      match Robot.named? name with
      | some active => (.ok .done, { s with
          scene := { s.scene with station := { s.scene.station with active } } })
      | none => (.error .unknownRobot, s) := by
  unfold ask carryOut switchTo
  simp only [bind_assoc]
  rw [run_get_bind, h]
  cases Robot.named? name <;> rfl

/-- A request that is turned down leaves the simulation as it was. -/
theorem ask_of_declined (cfg : Settings α) (s : Simulation α) (r : Request α)
    (h : r.declined (s.ask cfg r).1 = true) : (s.ask cfg r).2 = s := by
  cases r with
  | start commands =>
    cases hrunning : s.running with
    | true => rw [ask_start_of_running cfg hrunning]
    | false =>
      rw [ask_start cfg hrunning] at h
      cases h
  | startText text =>
    cases hread : (Program.commands? false text.toList : Except (Fault α) _) with
    | error fault => rw [ask_startText_of_error cfg hread]
    | ok commands =>
      cases commands with
      | nil => rw [ask_startText_of_nil cfg hread]
      | cons command rest =>
        cases hrunning : s.running with
        | true => rw [ask_startText_of_running cfg hrunning hread]
        | false =>
          rw [ask_startText cfg hrunning hread] at h
          cases h
  | switchTo name =>
    cases hrunning : s.running with
    | true => rw [ask_switchTo_of_running cfg hrunning]
    | false =>
      rw [ask_switchTo_of_not_running cfg hrunning] at h ⊢
      cases hname : Robot.named? name with
      | none => rfl
      | some robot =>
        rw [hname] at h
        cases h
  | _ => cases h

theorem trace_of_declined (cfg : Settings α) (s : Simulation α) (r : Request α)
    (h : r.declined (s.ask cfg r).1 = true) (rest : List (Request α)) :
    s.trace cfg (r :: rest) = ((s.ask cfg r).1, s) :: s.trace cfg rest := by
  have hsame := ask_of_declined cfg s r h
  rw [trace, hsame]
  exact congrArg (· :: s.trace cfg rest) (Prod.ext rfl hsame)

end Simulation

/-- Whatever is asked of a new simulation. At every moment, also within a frame, at most one program
is unfinished, of all that were ever started, and at most one wait is open. From one moment to the
next the active robot stays the same while a program is unfinished. A request for a program or for
another robot that is turned down, and a text without commands, leave the whole simulation as it
was, so that all later requests give what they would have given without it. -/
theorem one_program (cfg : Settings α) (world : World α) (requests : List (Request α)) :
    let history := Moment.history cfg ⟨[], .new cfg world⟩ requests
    (∀ m ∈ history, m.unfinished ≤ 1 ∧ m.now.scene.clock.pending ≤ 1) ∧
    (history.IsChain fun m next =>
      0 < m.unfinished → next.now.scene.station.active = m.now.scene.station.active) ∧
    ∃ last, history.getLast? = some last ∧
      last.now = (Simulation.new cfg world).after cfg requests ∧
      ∀ r : Request α, r.declined (last.now.ask cfg r).1 = true →
        (last.now.ask cfg r).2 = last.now ∧
        ∀ rest, last.now.trace cfg (r :: rest) =
          ((last.now.ask cfg r).1, last.now) :: last.now.trace cfg rest := by
  have hsound := Moment.sound_new cfg world
  refine ⟨Moment.single_of_mem_history cfg hsound requests,
    Moment.locked_history cfg hsound requests, ?_⟩
  obtain ⟨past, hlast⟩ := Moment.exists_getLast?_history cfg ⟨[], .new cfg world⟩ requests
  refine ⟨_, hlast, rfl, fun r hdeclined => ?_⟩
  exact ⟨Simulation.ask_of_declined cfg _ r hdeclined,
    Simulation.trace_of_declined cfg _ r hdeclined⟩

end ArmRover
