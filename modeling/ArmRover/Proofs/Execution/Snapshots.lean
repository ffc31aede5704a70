import ArmRover.Proofs.Arm.Limits
import ArmRover.Proofs.Execution.Effect
import ArmRover.Proofs.Execution.Posture
import ArmRover.Proofs.Execution.Sights

/-!
# A joint that turns, step by step

The joints are seen when a command begins and after each of its steps. While a joint turns, what is
seen of it are the angles after growing shares of the time, however the frames fall, and the last
share is all of it.

* `Execution.snapshots` — the joints in a stretch of a program, `Snapshot.during` — while one of the
  commands is under way, `Snapshot.during_snapshots` — they are sights of the joints.
* `Turn` — the turn of a joint in a program, `Turn.Sweeps` — what is seen of it, as far as it has
  come, `Turn.Swept` — when it is done.
* `Turn.Course` — how far a program has come with a turn, `Turn.course_of_run` — and how far it
  comes in a stretch.
* `Turn.Swept.getLast?`, `Turn.Swept.get_of_ne`, `Turn.Swept.pairwise` — the turn ends at its target,
  turns no other joint, and does not go back.
-/

namespace ArmRover

open ArmRover.Action

/-! ### Snapshots -/

/-- The joints at a moment of a program: when a command begins, or after one of its steps. -/
structure Snapshot (α : Type) where
  /-- How many commands come after that one. -/
  ahead : Nat
  joints : Joints α

/-- What is seen while the command is under way after which so many come. -/
def Snapshot.during {α : Type} (ahead : Nat) (log : List (Snapshot α)) : List (Joints α) :=
  (log.filter (·.ahead == ahead)).map (·.joints)

namespace Execution

variable {α : Type} [Scalar α]

/-- The joints after each step, up to the first one that waits or fails. -/
def shown (cfg : Settings α) : List (Step α) → Scene α → List (Joints α)
  | [], _ => []
  | step :: rest, s =>
    match step.take cfg s with
    | .ok (.waits ..) t | .error _ t => [t.station.arm.joints]
    | .ok _ t => t.station.arm.joints :: shown cfg rest t

/-- What is seen in a stretch of a program. -/
def snapshots (cfg : Settings α) : List (Command α) → List (Step α) → List (Value α) → Scene α →
    List (Snapshot α)
  | [], steps, _, s => (shown cfg steps s).map (Snapshot.mk 0)
  | command :: rest, steps, readings, s =>
    (shown cfg steps s).map (Snapshot.mk (rest.length + 1)) ++
      match takeSteps cfg steps readings s with
      | .ok (readings, none) t =>
        ⟨rest.length, t.station.arm.joints⟩ :: match command.steps? cfg t with
          | .ok steps => snapshots cfg rest steps readings t
          | .error _ => []
      | _ => []

end Execution

theorem Snapshot.during_append {α : Type} {ahead : Nat} (log log' : List (Snapshot α)) :
    during ahead (log ++ log') = during ahead log ++ during ahead log' := by
  unfold during
  rw [List.filter_append, List.map_append]

section Sights

variable {α : Type} [Scalar α]

theorem Execution.shown_eq_views (cfg : Settings α) (steps : List (Step α)) (s : Scene α) :
    shown cfg steps s = views (fun t => t.arm.joints) cfg steps s := by
  induction steps generalizing s with
  | nil => rfl
  | cons step rest ih =>
    unfold shown views
    generalize step.take cfg s = result
    cases result with
    | error fault t => rfl
    | ok outcome t =>
      cases outcome with
      | waits ticket again => rfl
      | done => exact congrArg _ (ih t)
      | reading distance => exact congrArg _ (ih t)

theorem Execution.snapshots_eq_sights (cfg : Settings α) (commands : List (Command α))
    (steps : List (Step α)) (readings : List (Value α)) (s : Scene α) :
    snapshots cfg commands steps readings s =
      (sights (fun t => t.arm.joints) cfg commands steps readings s).map
        fun sight => ⟨sight.ahead, sight.seen⟩ := by
  induction commands generalizing steps readings s with
  | nil =>
    unfold snapshots sights
    rw [shown_eq_views, List.map_map]
    rfl
  | cons command rest ih =>
    unfold snapshots sights
    rw [shown_eq_views, List.map_append, List.map_map]
    congr 1
    generalize takeSteps cfg steps readings s = result
    cases result with
    | error fault t => rfl
    | ok answer t =>
      obtain ⟨handed, _ | wait⟩ := answer
      · refine congrArg (_ :: ·) ?_
        cases command.steps? cfg t with
        | error fault => rfl
        | ok plan => exact ih plan handed t
      · rfl

/-- The joints that are seen during a command are sights of it. -/
theorem Snapshot.during_snapshots (ahead : Nat) (cfg : Settings α) (rest : Execution α)
    (s : Scene α) :
    during ahead (Execution.snapshots cfg rest.commands rest.steps rest.readings s) =
      Sight.during ahead (Execution.sights (fun t => t.arm.joints) cfg rest.commands rest.steps
        rest.readings s) := by
  rw [Execution.snapshots_eq_sights]
  unfold during Sight.during
  rw [List.filter_map, List.map_map]
  rfl

end Sights

/-! ### Turns -/

/-- The turn of a joint in a program. -/
structure Turn (α : Type) where
  joint : Joint
  target : α
  /-- The joints when it begins. -/
  start : Joints α
  /-- The commands after it. -/
  after : List (Command α)

namespace Turn

section Parts

variable {α : Type} [Scalar α]

/-- The joints after a share of the time. -/
def joints (turn : Turn α) (share : α) : Joints α :=
  turn.start.set turn.joint (turn.joint.turned (turn.start.get turn.joint) turn.target share)

/-- What is seen of a turn after some shares of the time. -/
def seen (turn : Turn α) (shares : List α) : List (Joints α) := turn.start :: shares.map turn.joints

omit [Scalar α] in
/-- The step of a turn that began at a time. -/
def step (turn : Turn α) (since : α) : Step α :=
  .turn turn.joint (turn.start.get turn.joint) turn.target since

end Parts

variable {turn : Turn ℝ} {cfg : Settings ℝ} {since now : ℝ} {shares : List ℝ}

/-- Shares of the time that a turn takes which have passed at times from its beginning to now, one
after the other. -/
structure Sweeps (cfg : Settings ℝ) (since now : ℝ) (shares : List ℝ) : Prop where
  begun : since ≤ now
  rising : shares.Pairwise (· ≤ ·)
  known : ∀ p ∈ shares, ∃ time, since ≤ time ∧ time ≤ now ∧
    Step.progress? (time - since) cfg.motion.jointTime = .ok p

theorem sweeps_nil (cfg : Settings ℝ) (now : ℝ) : Sweeps cfg now now [] where
  begun := le_rfl
  rising := .nil
  known := List.forall_mem_nil _

theorem Sweeps.later (h : Sweeps cfg since now shares) {now' : ℝ} (hle : now ≤ now') :
    Sweeps cfg since now' shares where
  begun := h.begun.trans hle
  rising := h.rising
  known p hp := by
    obtain ⟨time, hsince, hnow, hshare⟩ := h.known p hp
    exact ⟨time, hsince, hnow.trans hle, hshare⟩

/-- The share that has passed now is the largest one. -/
theorem Sweeps.append (h : Sweeps cfg since now shares) {p : ℝ}
    (hp : Step.progress? (now - since) cfg.motion.jointTime = .ok p) :
    Sweeps cfg since now (shares ++ [p]) where
  begun := h.begun
  rising := by
    refine List.pairwise_append.mpr ⟨h.rising, List.pairwise_singleton _ p, ?_⟩
    intro q hq p' hp'
    obtain ⟨time, -, hnow, hshare⟩ := h.known q hq
    rw [List.mem_singleton.mp hp']
    exact Step.progress?_le_progress? (sub_le_sub_right hnow since) hshare hp
  known := by
    refine List.forall_mem_append.mpr ⟨h.known, List.forall_mem_singleton.mpr ?_⟩
    exact ⟨now, h.begun, le_rfl, hp⟩

/-- A turn that is done, as it was seen. -/
def Swept (turn : Turn ℝ) (cfg : Settings ℝ) (seen : List (Joints ℝ)) : Prop :=
  ∃ since now shares, Sweeps cfg since now shares ∧ shares.getLast? = some 1 ∧
    seen = turn.seen shares

/-- How far a program has come with a turn, of which something may have been seen. -/
inductive Course (turn : Turn ℝ) (cfg : Settings ℝ) :
    List (Joints ℝ) → Execution ℝ → Posture ℝ → ℝ → Prop where
  | ahead {rest : Execution ℝ} {p : Posture ℝ} {now : ℝ} (number : Int)
      (before : List (Command ℝ)) :
    Joint.numbered? number = some turn.joint →
    rest.commands = before ++ .moveJoint number turn.target :: turn.after →
    (∀ c ∈ before, c.posed = false) →
    (before.foldl (Command.aim cfg) (rest.steps.foldl Step.aim p)).joints = turn.start →
    Course turn cfg [] rest p now
  | underway {rest : Execution ℝ} {p : Posture ℝ} {now : ℝ} (since : ℝ) (shares : List ℝ) (x : ℝ) :
    rest.steps = [turn.step since] → rest.commands = turn.after → Sweeps cfg since now shares →
    p.joints = turn.start.set turn.joint x → Course turn cfg (turn.seen shares) rest p now
  | past {rest : Execution ℝ} {p : Posture ℝ} {now : ℝ} {seen : List (Joints ℝ)} :
    rest.commands.length < turn.after.length → turn.Swept cfg seen → Course turn cfg seen rest p now

/-- How far a program has come with a turn, after a stretch. -/
def Reached (turn : Turn ℝ) (cfg : Settings ℝ) (seen : List (Joints ℝ)) (p : Posture ℝ) (now : ℝ) :
    Progress ℝ → Prop
  | .waiting _ rest => turn.Course cfg seen rest p now
  | .done _ => turn.Swept cfg seen

theorem Course.later {seen : List (Joints ℝ)} {rest : Execution ℝ} {p : Posture ℝ}
    (h : turn.Course cfg seen rest p now) {now' : ℝ} (hle : now ≤ now') :
    turn.Course cfg seen rest p now' := by
  cases h with
  | ahead number before hnumber hcommands hposed hstart =>
    exact .ahead number before hnumber hcommands hposed hstart
  | underway since shares x hsteps hcommands hsweeps hjoints =>
    exact .underway since shares x hsteps hcommands (hsweeps.later hle) hjoints
  | past hlength hswept => exact .past hlength hswept

section Stretches

variable {readings : List (Value ℝ)} {s t : Scene ℝ} {progress : Progress ℝ}

open Execution in
/-- A stretch in which a joint turns goes on with the turn, or ends it. -/
theorem reached_of_underway
    (h : run cfg turn.after [turn.step since] readings s = .ok progress t) {x : ℝ}
    (hsweeps : Sweeps cfg since s.clock.now shares)
    (hjoints : s.station.arm.joints = turn.start.set turn.joint x) :
    turn.Reached cfg
      (turn.seen shares ++ Sight.during turn.after.length
        (sights (fun u => u.arm.joints) cfg turn.after [turn.step since] readings s))
      t.station.posture t.clock.now progress := by
  have hnow : t.clock.now = s.clock.now :=
    (preserves_now (opening_run cfg _ _ _) s.clock.now).of_ok h rfl
  rw [during_length_sights, hnow]
  cases htake : (turn.step since).take cfg s with
  | error fault u =>
    have hsteps : takeSteps cfg [turn.step since] readings s = .error fault u := by
      rw [takeSteps, run_bind_error htake]
    rw [run_of_error hsteps] at h
    cases h
  | ok outcome u =>
    obtain ⟨share, hshare, hposture, hend⟩ := Step.of_take_turn htake
    have hlonger := hsweeps.append hshare
    have hturned : u.station.arm.joints = turn.joints share := by
      have hset := congrArg Posture.joints hposture
      rw [hjoints, Joints.set_set] at hset
      exact hset
    have hseen : turn.seen shares ++ views (fun u => u.arm.joints) cfg [turn.step since] s =
        turn.seen (shares ++ [share]) := by
      have hshown : views (fun u => u.arm.joints) cfg [turn.step since] s =
          [turn.joints share] := by
        rw [← hturned]
        unfold views
        rw [htake]
        rcases hend with ⟨-, rfl⟩ | ⟨ticket, rfl⟩ <;> rfl
      rw [hshown]
      unfold Turn.seen
      rw [List.map_append]
      rfl
    rw [hseen]
    rcases hend with ⟨rfl, rfl⟩ | ⟨ticket, rfl⟩
    · -- all of the time has passed, and the next command begins
      have hswept : turn.Swept cfg (turn.seen (shares ++ [1])) :=
        ⟨since, s.clock.now, _, hlonger, List.getLast?_concat, rfl⟩
      cases progress with
      | done => exact hswept
      | waiting ticket rest => exact .past (length_lt_of_run (takeSteps_done htake) h) hswept
    · rw [run_waits htake] at h
      cases h
      exact .underway since _ _ rfl rfl hlonger hturned

open Execution in
/-- A stretch goes on with the commands before a turn, and may begin it. -/
theorem reached_of_ahead {number : Int} {before : List (Command ℝ)} {steps : List (Step ℝ)}
    (hnumber : Joint.numbered? number = some turn.joint)
    (hposed : ∀ c ∈ before, c.posed = false)
    (hstart : (before.foldl (Command.aim cfg)
      (steps.foldl Step.aim s.station.posture)).joints = turn.start)
    (h : run cfg (before ++ .moveJoint number turn.target :: turn.after) steps readings s =
      .ok progress t) :
    turn.Reached cfg
      (Sight.during turn.after.length
        (sights (fun u => u.arm.joints) cfg (before ++ .moveJoint number turn.target :: turn.after)
          steps readings s))
      t.station.posture t.clock.now progress := by
  induction before generalizing steps readings s with
  | nil =>
    obtain ⟨_, _, left, hsteps, rfl⟩ | ⟨handed, u, plan, hsteps, hplan, hrun⟩ := exists_of_run_cons h
    · rw [List.nil_append, during_sights_of_wait hsteps (Nat.le_refl _)]
      exact .ahead number [] hnumber rfl hposed ((aim_of_takeSteps hsteps) ▸ hstart)
    · have hjoints : u.station.arm.joints = turn.start :=
        (congrArg Posture.joints (aim_of_takeSteps hsteps)).trans hstart
      have hturn : plan = [turn.step u.clock.now] := by
        unfold Command.steps? at hplan
        dsimp only at hplan
        rw [hnumber, hjoints] at hplan
        exact (Except.ok.inj hplan).symm
      rw [List.nil_append, during_sights_of_command hsteps hplan (Nat.le_refl _),
        Sight.during_cons_self, hjoints]
      subst hturn
      refine reached_of_underway hrun (sweeps_nil cfg u.clock.now)
        (x := turn.start.get turn.joint) ?_
      rw [Joints.set_get]
      exact hjoints
  | cons c before ih =>
    have hlater : turn.after.length <
        (before ++ .moveJoint number turn.target :: turn.after).length := by
      rw [List.length_append, List.length_cons]
      omega
    obtain ⟨_, _, left, hsteps, rfl⟩ | ⟨handed, u, plan, hsteps, hplan, hrun⟩ := exists_of_run_cons h
    · rw [List.cons_append, during_sights_of_wait hsteps hlater.le]
      exact .ahead number (c :: before) hnumber rfl hposed ((aim_of_takeSteps hsteps) ▸ hstart)
    · obtain ⟨hcommand, hbefore⟩ := List.forall_mem_cons.mp hposed
      rw [List.cons_append, during_sights_of_command hsteps hplan hlater.le,
        Sight.during_cons_of_ne hlater.ne']
      refine ih hbefore ?_ hrun
      rw [← hstart, List.foldl_cons, Command.aim_steps? hplan hcommand, ← aim_of_takeSteps hsteps]
      rfl

open Execution in
/-- A stretch of a program goes on with a turn, wherever it stands. -/
theorem course_of_run {rest : Execution ℝ} {seen : List (Joints ℝ)}
    (hcourse : turn.Course cfg seen rest s.station.posture s.clock.now)
    (h : run cfg rest.commands rest.steps rest.readings s = .ok progress t) :
    turn.Reached cfg
      (seen ++ Sight.during turn.after.length
        (sights (fun u => u.arm.joints) cfg rest.commands rest.steps rest.readings s))
      t.station.posture t.clock.now progress := by
  cases hcourse with
  | ahead number before hnumber hcommands hposed hstart =>
    rw [hcommands] at h ⊢
    exact reached_of_ahead hnumber hposed hstart h
  | underway since shares x hsteps hcommands hsweeps hjoints =>
    rw [hsteps, hcommands] at h ⊢
    exact reached_of_underway h hsweeps hjoints
  | past hlength hswept =>
    rw [during_sights_of_lt hlength, List.append_nil]
    cases progress with
    | done => exact hswept
    | waiting ticket left => exact .past ((suffix_of_run h).length_le.trans_lt hlength) hswept

end Stretches

/-! ### What a turn was -/

theorem Sweeps.bounds (h : Sweeps cfg since now shares) : ∀ p ∈ shares, 0 ≤ p ∧ p ≤ 1 := by
  intro p hp
  obtain ⟨time, hsince, -, hshare⟩ := h.known p hp
  exact ⟨Step.progress?_nonneg (sub_nonneg.mpr hsince) hshare, Step.progress?_le_one hshare⟩

namespace Swept

variable {seen : List (Joints ℝ)}

theorem head? (h : turn.Swept cfg seen) : seen.head? = some turn.start := by
  obtain ⟨_, _, shares, -, -, rfl⟩ := h
  rfl

/-- A turn ends at its target, brought into the range. -/
theorem getLast? (h : turn.Swept cfg seen) :
    seen.getLast? = some (turn.start.set turn.joint (turn.joint.clamp turn.target)) := by
  obtain ⟨_, _, shares, -, hlast, rfl⟩ := h
  unfold Turn.seen
  rw [List.getLast?_cons, List.getLast?_map, hlast]
  show some (turn.joints 1) = _
  unfold joints
  rw [Joint.turned_one]

/-- A turn turns no other joint. -/
theorem get_of_ne (h : turn.Swept cfg seen) {k : Joint} (hk : k ≠ turn.joint) :
    ∀ q ∈ seen, q.get k = turn.start.get k := by
  obtain ⟨_, _, shares, -, -, rfl⟩ := h
  refine List.forall_mem_cons.mpr ⟨rfl, List.forall_mem_map.mpr fun share _ => ?_⟩
  exact Joints.get_set_of_ne hk.symm _ _

/-- A turn from within the range does not go back, and not beyond its end. -/
theorem pairwise (h : turn.Swept cfg seen)
    (hstart : turn.joint.within (turn.start.get turn.joint) = true) :
    (seen.map (·.get turn.joint)).Pairwise fun x y =>
      y ∈ Set.uIcc x (turn.joint.clamp turn.target) := by
  obtain ⟨since, now, shares, hsweeps, -, rfl⟩ := h
  -- what is seen first is the angle after no time
  have hangles : (turn.seen shares).map (·.get turn.joint) =
      (0 :: shares).map (turn.joint.turned (turn.start.get turn.joint) turn.target) := by
    unfold Turn.seen
    rw [List.map_cons, List.map_cons, List.map_map, Joint.turned_zero,
      Joint.clamp_of_within hstart]
    refine congrArg _ (List.map_congr_left fun share _ => ?_)
    exact Joints.get_set_self _ _ _
  have hbounds := hsweeps.bounds
  have hrising : (0 :: shares).Pairwise (· ≤ ·) :=
    List.pairwise_cons.mpr ⟨fun p hp => (hbounds p hp).1, hsweeps.rising⟩
  rw [hangles, List.pairwise_map]
  refine hrising.imp_of_mem fun {p q} hp hq hpq => ?_
  have hin : ∀ r ∈ (0 :: shares : List ℝ), 0 ≤ r ∧ r ≤ 1 :=
    List.forall_mem_cons.mpr ⟨⟨le_rfl, zero_le_one⟩, hbounds⟩
  exact Joint.turned_mem_uIcc (hin p hp).1 hpq (hin q hq).2

end Swept

end Turn

end ArmRover
