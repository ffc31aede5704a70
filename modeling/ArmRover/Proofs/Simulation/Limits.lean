import ArmRover.Proofs.Scalar.Real
import ArmRover.Proofs.Simulation.Always

/-!
# The limits of the joints at every moment

Requests are not the only way to the joints: they can be set from outside as well, one or all of
them. Whoever sets them, also in the middle of a turn, brings them into their limits, and so they
are in their limits at every moment, also while a program waits.

* `Operation` — what can be done to a simulation, `Simulation.operate` — doing it,
  `Simulation.moments` — the moments of many operations.
* `Station.unbroken_within` — nothing breaks the limits.
* `Station.Enduring.moments` — what nothing breaks holds at all moments, `joints_stay_within` — so
  the joints are in their limits.
-/

namespace ArmRover

open ArmRover.Action

/-! ### Operations -/

/-- What can be done to a simulation: what can be asked of it, and the writes to the robots that
are open to everyone, whether a program runs or not. -/
inductive Operation (α : Type) where
  | request (r : Request α)
  /-- Set the joint with a given number. -/
  | setJoint (number : Int) (angle : α)
  /-- Set all joints, if the angles are five. -/
  | setJoints (angles : List α)
  | select (robot : Robot)
  | homeArm
  | homeRover

namespace Simulation

variable {α : Type} [Scalar α]

/-- The write to the robots that an operation is. -/
def writeOf (cfg : Settings α) : Operation α → Action α (Station α) Unit
  | .request _ => pure ()
  | .setJoint number angle => Station.setJoint? number angle
  | .setJoints angles => do
    let q ← Action.lift (Joints.ofList? angles)
    modify fun s => s.setJoints q
  | .select robot => modify fun s => { s with active := robot }
  | .homeArm => modify fun s => s.homeArm cfg.toRig
  | .homeRover => modify fun s => s.homeRover cfg.toRig

/-- The simulation after an operation, also when that fails. -/
def operate (cfg : Settings α) (s : Simulation α) : Operation α → Simulation α
  | .request r => (s.ask cfg r).2
  | write => final (onStation (writeOf cfg write) s)

/-- The moments of an operation before its end. -/
def duringOperation (cfg : Settings α) (s : Simulation α) : Operation α → List (Simulation α)
  | .request r => s.during cfg r
  | _ => []

/-- The moments of operations, one after the other. -/
def moments (cfg : Settings α) (s : Simulation α) : List (Operation α) → List (Simulation α)
  | [] => [s]
  | op :: rest => (s :: s.duringOperation cfg op) ++ moments cfg (s.operate cfg op) rest

end Simulation

/-! ### The limits -/

section Limits

variable {α : Type} [Scalar α] [Scalar.Ordered α] [Joint.Ranged α]

/-- Where nothing is missing, no write, no request and no time bring a joint out of its limits. -/
theorem Station.unbroken_within (hnan : ∀ x : α, Scalar.isNaN x = false) (cfg : Settings α) :
    Station.Unbroken cfg fun s => s.arm.joints.within = true where
  handled := Station.lasting_within.forArm
  steered := Station.lasting_within.steered cfg.driving
  kept := Station.kept_within hnan cfg
  switched _ _ h := h
  homeArm _ _ := Joints.within_zero
  homeRover _ h := h
  reset _ h := h
  refreshed _ _ :=
    Sensors.preserves_refresh (Sensors.preserves_lookAhead (fun _ h => h) fun _ _ h => h)
      (fun _ h => h) (Sensors.preserves_scanAround (fun _ _ h => h) fun _ _ h => h)

end Limits

namespace Station.Enduring

variable {α : Type} [Scalar α] {cfg : Settings α} {P : Station α → Prop} {s : Simulation α}

/-- The writes from outside keep what endures. -/
theorem operate (h : Enduring cfg P) (op : Operation α) (hs : P s.scene.station) :
    P (s.operate cfg op).scene.station := by
  have hwrite : ∀ {act : Action α (Station α) Unit}, Preserves P act →
      P (final (Simulation.onStation act s)).scene.station := fun hact =>
    Simulation.preserves_station hact s hs
  cases op with
  | request r => exact h.ask r hs
  | setJoint number angle =>
    refine hwrite ?_
    show Preserves P (Station.setJoint? number angle)
    unfold Station.setJoint?
    cases Joint.numbered? number with
    | none => exact preserves_throw _
    | some j => exact preserves_modify fun t ht => h.kept.turned t j angle ht
  | setJoints angles =>
    refine hwrite (preserves_bind (preserves_lift _) fun q => ?_)
    exact preserves_modify fun t ht => h.kept.posed t q ht
  | select robot => exact hwrite (preserves_modify fun t ht => h.switched t robot ht)
  | homeArm => exact hwrite (preserves_modify h.homeArm)
  | homeRover => exact hwrite (preserves_modify h.homeRover)

theorem duringOperation (h : Enduring cfg P) (op : Operation α) (hs : P s.scene.station) :
    ∀ t ∈ s.duringOperation cfg op, P t.scene.station := by
  cases op with
  | request r => exact h.during r hs
  | _ => exact List.forall_mem_nil _

theorem moments (h : Enduring cfg P) (operations : List (Operation α)) (hs : P s.scene.station) :
    ∀ t ∈ s.moments cfg operations, P t.scene.station := by
  induction operations generalizing s with
  | nil => exact List.forall_mem_singleton.mpr hs
  | cons op rest ih =>
    refine List.forall_mem_append.mpr ⟨List.forall_mem_cons.mpr ⟨hs, ?_⟩, ?_⟩
    · exact h.duringOperation op hs
    · exact ih (h.operate op hs)

end Station.Enduring

theorem Station.Unbroken.moments {α : Type} [Scalar α] {cfg : Settings α} {P : Station α → Prop}
    {s : Simulation α} (h : Unbroken cfg P) (operations : List (Operation α))
    (hs : P s.scene.station) : ∀ t ∈ s.moments cfg operations, P t.scene.station :=
  h.enduring.moments operations hs

/-- Whatever is done to a new simulation, with whatever settings: every joint is in its limits at
every moment, between two operations and whenever a program waits or ends within one. -/
theorem joints_stay_within (cfg : Settings ℝ) (world : World ℝ) (operations : List (Operation ℝ)) :
    ∀ s ∈ (Simulation.new cfg world).moments cfg operations, ∀ j : Joint,
      -j.limit ≤ s.scene.station.arm.joints.get j ∧
        s.scene.station.arm.joints.get j ≤ j.limit := by
  intro s hs j
  have hwithin := (Station.unbroken_within Scalar.isNaN_real cfg).moments operations
    (s := .new cfg world) Joints.within_zero s hs
  exact Joint.within_iff.mp (Joints.within_iff.mp hwithin j)

/-- A base that is set to more than a full turn stops at half a turn. -/
theorem joints_stay_within_beyond :
    let cfg : Settings ℝ := .standard
    let s := (Simulation.new cfg []).operate cfg (.setJoint 0 400)
    s ∈ (Simulation.new cfg []).moments cfg [.setJoint 0 400] ∧
      s.scene.station.arm.joints.get .base = 180 ∧
      -Joint.base.limit ≤ s.scene.station.arm.joints.get .base ∧
      s.scene.station.arm.joints.get .base ≤ Joint.base.limit := by
  intro cfg s
  have hmem : s ∈ (Simulation.new cfg []).moments cfg [.setJoint 0 400] :=
    List.mem_cons_of_mem _ List.mem_cons_self
  have hbase : s.scene.station.arm.joints.get .base = Joint.base.clamp 400 := rfl
  refine ⟨hmem, ?_, joints_stay_within cfg [] [.setJoint 0 400] s hmem .base⟩
  rw [hbase]
  simp only [Joint.clamp, Joint.limit, Scalar.clamp_real, Scalar.numeral_real]
  norm_num

end ArmRover
