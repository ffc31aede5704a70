import ArmRover.Execution.Basic
import ArmRover.Proofs.Action

/-!
# A stretch of a program

A program runs from one wait to the next, step by step. A command begins when the steps before it
are taken.

* `Execution.run_of_done`, `Execution.run_of_wait`, `Execution.run_of_error` — a stretch from how
  its steps end.
* `Execution.run_done`, `Execution.run_waits`, `Execution.run_command` and others — one step of a
  stretch.
* `Step.exists_of_take_waits`, `Execution.exists_of_run_nil`, `Execution.exists_of_run_cons` — what
  a wait and a stretch were, `Execution.suffix_of_run` — the commands that a stretch leaves.
* `Execution.begun` — the commands that begin in a stretch, each with the scene in which it begins,
  `Execution.begun_done`, `Execution.begun_command` and others — the same, step by step.
-/

namespace ArmRover

variable {α : Type} [Scalar α]

open ArmRover.Action

namespace Execution

variable {cfg : Settings α} {step : Step α} {rest : List (Step α)} {commands : List (Command α)}
  {readings : List (Value α)} {s t : Scene α}

theorem run_congr {steps : List (Step α)} {readings' : List (Value α)} {s' : Scene α}
    {steps' : List (Step α)}
    (h : takeSteps cfg steps readings s = takeSteps cfg steps' readings' s') :
    run cfg commands steps readings s = run cfg commands steps' readings' s' := by
  unfold run
  cases hrun : takeSteps cfg steps' readings' s' with
  | ok answer u => rw [run_bind (h.trans hrun), run_bind hrun]
  | error fault u => rw [run_bind_error (h.trans hrun), run_bind_error hrun]

/-- Steps that are all taken lead on to the next command. -/
theorem run_of_done {steps : List (Step α)} {handed : List (Value α)}
    (h : takeSteps cfg steps readings s = .ok (handed, none) t) :
    run cfg commands steps readings s = run cfg commands [] handed t :=
  run_congr h

theorem run_of_wait {steps left : List (Step α)} {handed : List (Value α)} {ticket : Nat}
    (h : takeSteps cfg steps readings s = .ok (handed, some (ticket, left)) t) :
    run cfg commands steps readings s = .ok (.waiting ticket ⟨left, commands, handed⟩) t := by
  unfold run
  rw [run_bind h]
  rfl

theorem run_of_error {steps : List (Step α)} {fault : Fault α}
    (h : takeSteps cfg steps readings s = .error fault t) :
    run cfg commands steps readings s = .error fault t := by
  unfold run
  rw [run_bind_error h]

theorem takeSteps_done (h : step.take cfg s = .ok .done t) :
    takeSteps cfg (step :: rest) readings s = takeSteps cfg rest readings t := by
  rw [takeSteps, run_bind h]

theorem takeSteps_reading {distance : Value α} (h : step.take cfg s = .ok (.reading distance) t) :
    takeSteps cfg (step :: rest) readings s = takeSteps cfg rest (readings ++ [distance]) t := by
  rw [takeSteps, run_bind h]

theorem takeSteps_waits {ticket : Nat} {again : List (Step α)}
    (h : step.take cfg s = .ok (.waits ticket again) t) :
    takeSteps cfg (step :: rest) readings s = .ok (readings, some (ticket, again ++ rest)) t := by
  rw [takeSteps, run_bind h]
  rfl

theorem run_done (h : step.take cfg s = .ok .done t) :
    run cfg commands (step :: rest) readings s = run cfg commands rest readings t :=
  run_congr (takeSteps_done h)

theorem run_reading {distance : Value α} (h : step.take cfg s = .ok (.reading distance) t) :
    run cfg commands (step :: rest) readings s =
      run cfg commands rest (readings ++ [distance]) t :=
  run_congr (takeSteps_reading h)

theorem run_waits {ticket : Nat} {again : List (Step α)}
    (h : step.take cfg s = .ok (.waits ticket again) t) :
    run cfg commands (step :: rest) readings s =
      .ok (.waiting ticket ⟨again ++ rest, commands, readings⟩) t :=
  run_of_wait (takeSteps_waits h)

theorem run_finished : run cfg [] [] readings s = .ok (.done readings) s := by
  rw [run, takeSteps]
  rfl

theorem run_cons (command : Command α) :
    run cfg (command :: commands) [] readings s =
      (Action.lift (command.steps? cfg s) >>= fun steps => run cfg commands steps readings) s := by
  rw [run]
  rfl

theorem run_command {command : Command α} {steps : List (Step α)}
    (h : command.steps? cfg s = .ok steps) :
    run cfg (command :: commands) [] readings s = run cfg commands steps readings s := by
  rw [run_cons, h]
  rfl

theorem run_no_steps {command : Command α} {fault : Fault α}
    (h : command.steps? cfg s = .error fault) :
    run cfg (command :: commands) [] readings s = .error fault s := by
  rw [run_cons, h]
  rfl

end Execution

/-! ### What a stretch was -/

/-- A step that waits turns a joint on in the next frame, or it is a sleep. -/
theorem Step.exists_of_take_waits {cfg : Settings α} {step : Step α} {ticket : Nat}
    {again : List (Step α)} {s t : Scene α} (h : step.take cfg s = .ok (.waits ticket again) t) :
    ∃ due, ticket = s.clock.issued ∧ t.clock = s.clock.register due ∧
      ((∃ j start target since, step = .turn j start target since ∧ due = .nextFrame ∧
          again = [step]) ∨
        ∃ seconds deadline, step = .sleep seconds ∧ due = .time deadline ∧ again = []) := by
  cases step with
  | turn j start target since =>
    simp only [take] at h
    rw [run_get_bind] at h
    obtain ⟨progress, u, hlift, h⟩ := exists_of_bind_eq_ok h
    obtain ⟨-, rfl⟩ := of_lift_eq_ok hlift
    obtain ⟨_, u, hturn, h⟩ := exists_of_bind_eq_ok h
    cases hturn
    split at h <;> cases h
    exact ⟨.nextFrame, rfl, rfl, .inl ⟨j, start, target, since, rfl, rfl, rfl⟩⟩
  | drive vx wz =>
    simp only [take] at h
    rw [run_get_bind] at h
    obtain ⟨_, u, -, h⟩ := exists_of_bind_eq_ok h
    cases h
  | sleep seconds =>
    have hpause : pause (.sleep seconds) [] s = (.waits ticket again, t) := by
      injection h with houtcome hscene
      exact Prod.ext houtcome hscene
    unfold pause at hpause
    split at hpause
    · cases hpause
    · next due hdue =>
      cases hpause
      simp only [Clock.dueAfter] at hdue
      split at hdue <;> cases hdue
      exact ⟨_, rfl, rfl, .inr ⟨seconds, _, rfl, rfl, rfl⟩⟩
  | _ => cases h

namespace Execution

section Inversion

variable {cfg : Settings α} {commands : List (Command α)} {readings : List (Value α)}
  {s t : Scene α}

variable {steps : List (Step α)} {command : Command α} {progress : Progress α}

/-- The last stretch of a program takes its last steps, or waits in one of them. -/
theorem exists_of_run_nil (h : run cfg [] steps readings s = .ok progress t) :
    (∃ handed ticket left, takeSteps cfg steps readings s = .ok (handed, some (ticket, left)) t ∧
        progress = .waiting ticket ⟨left, [], handed⟩) ∨
      ∃ handed, takeSteps cfg steps readings s = .ok (handed, none) t ∧
        progress = .done handed := by
  unfold run at h
  obtain ⟨⟨handed, wait⟩, u, hsteps, h⟩ := exists_of_bind_eq_ok h
  cases wait with
  | none =>
    cases h
    exact .inr ⟨handed, hsteps, rfl⟩
  | some wait =>
    cases h
    exact .inl ⟨handed, wait.1, wait.2, hsteps, rfl⟩

/-- Another stretch waits in one of its steps, or takes them and goes on with the next command. -/
theorem exists_of_run_cons (h : run cfg (command :: commands) steps readings s = .ok progress t) :
    (∃ handed ticket left, takeSteps cfg steps readings s = .ok (handed, some (ticket, left)) t ∧
        progress = .waiting ticket ⟨left, command :: commands, handed⟩) ∨
      ∃ handed u plan, takeSteps cfg steps readings s = .ok (handed, none) u ∧
        command.steps? cfg u = .ok plan ∧ run cfg commands plan handed u = .ok progress t := by
  unfold run at h
  obtain ⟨⟨handed, wait⟩, u, hsteps, h⟩ := exists_of_bind_eq_ok h
  cases wait with
  | none =>
    obtain ⟨_, u', ⟨⟩, h⟩ := exists_of_bind_eq_ok h
    obtain ⟨plan, u', hrun, h⟩ := exists_of_bind_eq_ok h
    obtain ⟨hplan, rfl⟩ := of_lift_eq_ok hrun
    exact .inr ⟨handed, u, plan, hsteps, hplan, h⟩
  | some wait =>
    cases h
    exact .inl ⟨handed, wait.1, wait.2, hsteps, rfl⟩

/-- The commands that are left are the last ones. -/
theorem suffix_of_run {ticket : Nat} {left : Execution α}
    (h : run cfg commands steps readings s = .ok (.waiting ticket left) t) :
    left.commands <:+ commands := by
  induction commands generalizing steps readings s with
  | nil =>
    obtain ⟨_, _, _, -, hprogress⟩ | ⟨_, -, hprogress⟩ := exists_of_run_nil h
    · cases hprogress
      exact List.suffix_rfl
    · cases hprogress
  | cons command commands ih =>
    obtain ⟨_, _, _, -, hprogress⟩ | ⟨_, _, _, -, -, hrun⟩ := exists_of_run_cons h
    · cases hprogress
      exact List.suffix_rfl
    · exact (ih hrun).trans (List.suffix_cons command commands)

/-- When the steps of a command are done, it is done. -/
theorem length_lt_of_run {handed : List (Value α)} {ticket : Nat} {left : Execution α} {u : Scene α}
    (hsteps : takeSteps cfg steps readings s = .ok (handed, none) u)
    (h : run cfg commands steps readings s = .ok (.waiting ticket left) t) :
    left.commands.length < commands.length := by
  unfold run at h
  rw [run_bind hsteps] at h
  cases commands with
  | nil => cases h
  | cons command commands =>
    obtain ⟨_, u', -, h⟩ := exists_of_bind_eq_ok h
    obtain ⟨plan, u', -, h⟩ := exists_of_bind_eq_ok h
    exact Nat.lt_succ_of_le (suffix_of_run h).length_le

end Inversion

/-! ### The commands that begin -/

variable {cfg : Settings α} {step : Step α} {rest : List (Step α)} {commands : List (Command α)}
  {readings : List (Value α)} {s t : Scene α}

/-- The commands that begin from steps up to the next wait, each with the scene in which it
begins. -/
def begun (cfg : Settings α) : List (Command α) → List (Step α) → List (Value α) → Scene α →
    List (Command α × Scene α)
  | [], _, _, _ => []
  | command :: rest, steps, readings, s =>
    match takeSteps cfg steps readings s with
    | .ok (readings, none) s =>
      (command, s) :: match command.steps? cfg s with
        | .ok steps => begun cfg rest steps readings s
        | .error _ => []
    | _ => []

theorem begun_congr {steps : List (Step α)} {readings' : List (Value α)} {s' : Scene α}
    {steps' : List (Step α)}
    (h : takeSteps cfg steps readings s = takeSteps cfg steps' readings' s') :
    begun cfg commands steps readings s = begun cfg commands steps' readings' s' := by
  cases commands with
  | nil => rfl
  | cons command commands =>
    unfold begun
    rw [h]

theorem begun_done (h : step.take cfg s = .ok .done t) :
    begun cfg commands (step :: rest) readings s = begun cfg commands rest readings t :=
  begun_congr (takeSteps_done h)

theorem begun_reading {distance : Value α} (h : step.take cfg s = .ok (.reading distance) t) :
    begun cfg commands (step :: rest) readings s =
      begun cfg commands rest (readings ++ [distance]) t :=
  begun_congr (takeSteps_reading h)

theorem begun_waits {ticket : Nat} {again : List (Step α)}
    (h : step.take cfg s = .ok (.waits ticket again) t) :
    begun cfg commands (step :: rest) readings s = [] := by
  cases commands with
  | nil => rfl
  | cons command commands =>
    unfold begun
    rw [takeSteps_waits h]

theorem begun_command {command : Command α} {steps : List (Step α)}
    (h : command.steps? cfg s = .ok steps) :
    begun cfg (command :: commands) [] readings s =
      (command, s) :: begun cfg commands steps readings s := by
  have hsteps : takeSteps cfg ([] : List (Step α)) readings s = .ok (readings, none) s := rfl
  rw [begun, hsteps]
  show (command, s) :: _ = _
  rw [h]

end Execution

end ArmRover

