import ArmRover.Proofs.Execution.Stretch

/-!
# What is seen of a program

Something of the station is seen when a command begins and after each of its steps. Each of these
sights belongs to the command that is under way, which is told by how many commands come after it.

* `Sight` — a moment of a program, `Sight.during` — what is seen while one of the commands is under
  way.
* `Execution.views`, `Execution.sights` — what is seen of some steps, and of a stretch of a program.
* `Execution.during_length_sights` — what is seen of the command that is under way,
  `Execution.during_sights_of_stop`, `Execution.during_sights_of_command` — of later ones,
  `Execution.during_sights_of_lt` — of earlier ones.
-/

namespace ArmRover

open ArmRover.Action

variable {β : Type}

/-- What is seen at a moment of a program: when a command begins, or after one of its steps. -/
structure Sight (β : Type) where
  /-- How many commands come after that one. -/
  ahead : Nat
  seen : β

namespace Sight

/-- What is seen while the command is under way after which so many come. -/
def during (ahead : Nat) (log : List (Sight β)) : List β :=
  (log.filter (·.ahead == ahead)).map (·.seen)

variable {ahead : Nat}

theorem during_append (log log' : List (Sight β)) :
    during ahead (log ++ log') = during ahead log ++ during ahead log' := by
  unfold during
  rw [List.filter_append, List.map_append]

theorem during_cons_self (seen : β) (log : List (Sight β)) :
    during ahead (⟨ahead, seen⟩ :: log) = seen :: during ahead log := by
  unfold during
  rw [List.filter_cons_of_pos (by simp)]
  rfl

theorem during_cons_of_ne {n : Nat} (h : n ≠ ahead) (seen : β) (log : List (Sight β)) :
    during ahead (⟨n, seen⟩ :: log) = during ahead log := by
  unfold during
  rw [List.filter_cons_of_neg (by simpa using h)]

theorem during_eq_nil {log : List (Sight β)} (h : ∀ sight ∈ log, sight.ahead ≠ ahead) :
    during ahead log = [] := by
  unfold during
  rw [List.filter_eq_nil_iff.mpr fun sight hsight => by simpa using h sight hsight]
  rfl

theorem during_map_self (seen : List β) : during ahead (seen.map (mk ahead)) = seen := by
  induction seen with
  | nil => rfl
  | cons b rest ih => rw [List.map_cons, during_cons_self, ih]

theorem during_map_of_ne {n : Nat} (h : n ≠ ahead) (seen : List β) :
    during ahead (seen.map (mk n)) = [] :=
  during_eq_nil (List.forall_mem_map.mpr fun _ _ => h)

end Sight

namespace Execution

variable {α : Type} [Scalar α]

section Views

variable (view : Station α → β)

/-- What is seen after each step, up to the first one that waits or fails. -/
def views (cfg : Settings α) : List (Step α) → Scene α → List β
  | [], _ => []
  | step :: rest, s =>
    match step.take cfg s with
    | .ok (.waits ..) t | .error _ t => [view t.station]
    | .ok _ t => view t.station :: views cfg rest t

/-- What is seen in a stretch of a program. -/
def sights (cfg : Settings α) : List (Command α) → List (Step α) → List (Value α) → Scene α →
    List (Sight β)
  | [], steps, _, s => (views view cfg steps s).map (Sight.mk 0)
  | command :: rest, steps, readings, s =>
    (views view cfg steps s).map (Sight.mk (rest.length + 1)) ++
      match takeSteps cfg steps readings s with
      | .ok (readings, none) t =>
        ⟨rest.length, view t.station⟩ :: match command.steps? cfg t with
          | .ok steps => sights cfg rest steps readings t
          | .error _ => []
      | _ => []

end Views

variable {view : Station α → β} {cfg : Settings α} {commands : List (Command α)}
  {steps : List (Step α)} {readings : List (Value α)} {s : Scene α}

theorem ahead_le_of_mem_sights :
    ∀ sight ∈ sights view cfg commands steps readings s, sight.ahead ≤ commands.length := by
  induction commands generalizing steps readings s with
  | nil => exact List.forall_mem_map.mpr fun _ _ => Nat.le_refl 0
  | cons command rest ih =>
    unfold sights
    refine List.forall_mem_append.mpr ⟨List.forall_mem_map.mpr fun _ _ => Nat.le_refl _, ?_⟩
    split
    · refine List.forall_mem_cons.mpr ⟨Nat.le_succ _, ?_⟩
      split
      · exact fun sight hsight => Nat.le_succ_of_le (ih sight hsight)
      · exact List.forall_mem_nil _
    · exact List.forall_mem_nil _

/-- Where fewer commands are left, nothing more is seen of a command. -/
theorem during_sights_of_lt {ahead : Nat} (h : commands.length < ahead) :
    Sight.during ahead (sights view cfg commands steps readings s) = [] :=
  Sight.during_eq_nil fun sight hsight =>
    Nat.ne_of_lt (Nat.lt_of_le_of_lt (ahead_le_of_mem_sights sight hsight) h)

/-- Of the command that is under way its steps are seen. -/
theorem during_length_sights :
    Sight.during commands.length (sights view cfg commands steps readings s) =
      views view cfg steps s := by
  cases commands with
  | nil => exact Sight.during_map_self _
  | cons command rest =>
    unfold sights
    rw [Sight.during_append]
    refine (congrArg (· ++ _) (Sight.during_map_self _)).trans ?_
    refine (congrArg (_ ++ ·) ?_).trans (List.append_nil _)
    split
    · refine Sight.during_eq_nil (List.forall_mem_cons.mpr ⟨Nat.ne_of_lt (Nat.lt_succ_self _), ?_⟩)
      split
      · exact fun sight hsight =>
          Nat.ne_of_lt (Nat.lt_succ_of_le (ahead_le_of_mem_sights sight hsight))
      · exact List.forall_mem_nil _
    · rfl

/-- What is seen of a later command in a stretch that waits or fails before it. -/
theorem during_sights_of_stop {command : Command α} {ahead : Nat}
    (hstop : ∀ handed t, takeSteps cfg steps readings s ≠ .ok (handed, none) t)
    (hahead : ahead ≤ commands.length) :
    Sight.during ahead (sights view cfg (command :: commands) steps readings s) = [] := by
  unfold sights
  rw [Sight.during_append, Sight.during_map_of_ne (Nat.ne_of_gt (Nat.lt_succ_of_le hahead))]
  split
  · next hsteps => exact absurd hsteps (hstop _ _)
  · rfl

theorem during_sights_of_wait {command : Command α} {handed : List (Value α)}
    {wait : Nat × List (Step α)} {t : Scene α} {ahead : Nat}
    (hsteps : takeSteps cfg steps readings s = .ok (handed, some wait) t)
    (hahead : ahead ≤ commands.length) :
    Sight.during ahead (sights view cfg (command :: commands) steps readings s) = [] := by
  refine during_sights_of_stop (fun handed' u hdone => ?_) hahead
  injection hsteps.symm.trans hdone with hanswer
  cases congrArg Prod.snd hanswer

/-- What is seen of a later command from the next one on. -/
theorem during_sights_of_command {command : Command α} {handed : List (Value α)}
    {plan : List (Step α)} {t : Scene α} {ahead : Nat}
    (hsteps : takeSteps cfg steps readings s = .ok (handed, none) t)
    (hplan : command.steps? cfg t = .ok plan) (hahead : ahead ≤ commands.length) :
    Sight.during ahead (sights view cfg (command :: commands) steps readings s) =
      Sight.during ahead
        (⟨commands.length, view t.station⟩ :: sights view cfg commands plan handed t) := by
  conv_lhs => unfold sights
  rw [hsteps, Sight.during_append,
    Sight.during_map_of_ne (Nat.ne_of_gt (Nat.lt_succ_of_le hahead)), List.nil_append]
  dsimp only
  rw [hplan]

/-- What is seen of a later command in a stretch that finds no steps for the next one. -/
theorem during_sights_of_no_steps {command : Command α} {handed : List (Value α)}
    {fault : Fault α} {t : Scene α} {ahead : Nat}
    (hsteps : takeSteps cfg steps readings s = .ok (handed, none) t)
    (hplan : command.steps? cfg t = .error fault) (hahead : ahead < commands.length) :
    Sight.during ahead (sights view cfg (command :: commands) steps readings s) = [] := by
  unfold sights
  rw [hsteps, Sight.during_append, Sight.during_map_of_ne (Nat.ne_of_gt (Nat.lt_succ_of_lt hahead))]
  dsimp only
  rw [hplan]
  exact Sight.during_cons_of_ne (Nat.ne_of_gt hahead) _ []

end Execution

end ArmRover
