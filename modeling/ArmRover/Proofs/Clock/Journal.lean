import ArmRover.Clock.Basic
import Mathlib.Data.List.Nodup

/-!
# The journal of a clock

What happens to a clock is written down: which waits were opened, when and for what pause, and how
each of them was resolved. From the entries alone one can tell which waits are open and which of
them are due, and the clock agrees.

* `Happening` — what can happen, `Registration`, `Entry` — what is written down.
* `Journal.record` — a clock from the start on, with its journal.
* `Journal.unresolved`, `Registration.isDue` — what the entries tell.
* `Journal.Sound` — the clock agrees with the entries, `Journal.sound_record` — it always does.
* `Journal.Punctual` — what that says about wake-ups.
-/

namespace ArmRover

/-- What can happen to a clock. -/
inductive Happening (α : Type) where
  /-- Some task makes a pause. -/
  | pause (p : Pause α)
  | advance (dt : α)
  | release
  /-- The task that waits with a ticket is cancelled. -/
  | drop (ticket : Nat)
  | dropAll

/-- A wait as it was asked for: in that frame, at that time. -/
structure Registration (α : Type) where
  ticket : Nat
  pause : Pause α
  time : α
  frame : Nat

/-- What is written down. -/
inductive Entry (α : Type) where
  | registered (r : Registration α)
  | released (ticket : Nat)
  | cancelled (ticket : Nat)

/-- A clock with the entries so far. -/
structure Journal (α : Type) where
  clock : Clock α
  entries : List (Entry α)

/-! ### What the entries tell -/

/-- The wait that was opened, if the entry is about that. -/
def Entry.registration? : Entry α → Option (Registration α)
  | registered r => some r
  | _ => none

/-- The ticket of the wait that is over, if the entry is about that. -/
def Entry.resolved? : Entry α → Option Nat
  | registered _ => none
  | released ticket | cancelled ticket => some ticket

/-- The entries of this kind say that a wait is over. -/
def Entry.Ends (entry : Nat → Entry α) : Prop :=
  ∀ ticket, (entry ticket).registration? = none ∧ (entry ticket).resolved? = some ticket

theorem Entry.ends_released : Entry.Ends (Entry.released : Nat → Entry α) := fun _ => ⟨rfl, rfl⟩

theorem Entry.ends_cancelled : Entry.Ends (Entry.cancelled : Nat → Entry α) := fun _ => ⟨rfl, rfl⟩

namespace Journal

/-- All waits that were opened, in order. -/
def registrations (j : Journal α) : List (Registration α) :=
  j.entries.filterMap Entry.registration?

/-- The tickets of the waits that were released or cancelled, in order. -/
def resolved (j : Journal α) : List Nat := j.entries.filterMap Entry.resolved?

/-- The waits that were opened and neither released nor cancelled, in the order in which they were
opened. -/
def unresolved (j : Journal α) : List (Registration α) :=
  j.registrations.filter fun r => !j.resolved.contains r.ticket

/-- Let the open waits that meet a condition be over, and write it down. -/
def finish (j : Journal α) (p : Wait α → Bool) (entry : Nat → Entry α) : Journal α :=
  { clock := { j.clock with waits := j.clock.waits.filter fun w => !p w }
    entries := j.entries ++ (j.clock.waits.filter p).map fun w => entry w.ticket }

end Journal

section
variable [Scalar α]

/-- Whether a wait is due at a time and in a frame: a later frame than that of its registration, or
the time of its registration and the length of the pause, up to a billionth of a second. -/
def Registration.isDue (r : Registration α) (now : α) (frame : Nat) : Bool :=
  match r.pause with
  | .nextFrame => r.frame < frame
  | .sleep seconds => r.time + seconds - 1e-9 ≤ now

/-- The unresolved waits that are due at this moment. -/
def Journal.due (j : Journal α) : List (Registration α) :=
  j.unresolved.filter (·.isDue j.clock.now j.clock.frame)

/-- Let something happen to the clock, and write it down. -/
def Journal.happen (j : Journal α) : Happening α → Journal α
  | .pause p =>
    match j.clock.dueAfter p with
    | none => j
    | some due =>
      { clock := j.clock.register due
        entries := j.entries ++
          [.registered ⟨j.clock.issued, p, j.clock.now, j.clock.frame⟩] }
  | .advance dt => { j with clock := j.clock.advance dt }
  | .release =>
    { clock := j.clock.release
      entries := j.entries ++ j.clock.due.map fun w => .released w.ticket }
  | .drop ticket =>
    { clock := j.clock.drop ticket
      entries := j.entries ++
        (j.clock.waits.filter (·.ticket == ticket)).map fun w => .cancelled w.ticket }
  | .dropAll =>
    { clock := j.clock.dropAll
      entries := j.entries ++ j.clock.waits.map fun w => .cancelled w.ticket }

/-- The journal of a clock from a time on. -/
def Journal.record (start : α) (happenings : List (Happening α)) : Journal α :=
  happenings.foldl Journal.happen ⟨Clock.start start, []⟩

end

/-! ### The clock agrees -/

/-- The wait that a clock keeps for a registration. -/
def Registration.wait [Scalar α] (r : Registration α) : Wait α :=
  ⟨r.ticket, match r.pause with
    | .nextFrame => .nextFrame
    | .sleep seconds => .time (r.time + seconds), r.frame⟩

/-- The clock agrees with the entries: it has a ticket for every registration, it keeps the waits
that are unresolved, and none was resolved twice. -/
structure Journal.Sound [Scalar α] (j : Journal α) : Prop where
  tickets : j.registrations.map Registration.ticket = List.range j.clock.issued
  waits : j.clock.waits = j.unresolved.map Registration.wait
  once : j.resolved.Nodup
  known : ∀ ticket ∈ j.resolved, ticket < j.clock.issued

namespace Journal

variable {α : Type} [Scalar α] {j : Journal α}

theorem isDue_wait (c : Clock α) (r : Registration α) :
    c.isDue r.wait = r.isDue c.now c.frame := by
  obtain ⟨ticket, pause, time, frame⟩ := r
  cases pause <;> rfl

namespace Sound

theorem nodup_tickets (h : j.Sound) : (j.registrations.map Registration.ticket).Nodup := by
  rw [h.tickets]
  exact List.nodup_range

theorem ticket_lt (h : j.Sound) {r : Registration α} (hr : r ∈ j.registrations) :
    r.ticket < j.clock.issued := by
  have hmem := List.mem_map_of_mem (f := Registration.ticket) hr
  rw [h.tickets] at hmem
  exact List.mem_range.mp hmem

/-- The tickets of open waits are distinct. -/
theorem nodup_waits (h : j.Sound) : (j.clock.waits.map Wait.ticket).Nodup := by
  rw [h.waits, List.map_map]
  exact h.nodup_tickets.sublist (List.filter_sublist.map Registration.ticket)

/-- The open waits for which something holds. -/
theorem filter_waits (h : j.Sound) (p : Wait α → Bool) :
    j.clock.waits.filter p = (j.unresolved.filter fun r => p r.wait).map Registration.wait := by
  rw [h.waits, List.filter_map]
  rfl

theorem due_eq (h : j.Sound) : j.clock.due = j.due.map Registration.wait := by
  unfold Clock.due Journal.due
  rw [h.filter_waits]
  congr 1
  exact List.filter_congr fun r _ => isDue_wait j.clock r

omit [Scalar α] in
theorem not_mem_resolved {r : Registration α} (hr : r ∈ j.unresolved) :
    r.ticket ∉ j.resolved := by
  have hopen := (List.mem_filter.mp hr).2
  simpa using hopen

/-- A registration is told by its ticket. -/
theorem eq_of_ticket (h : j.Sound) {r r' : Registration α} (hr : r ∈ j.unresolved)
    (hr' : r' ∈ j.unresolved) (heq : r.ticket = r'.ticket) : r = r' :=
  List.inj_on_of_nodup_map h.nodup_tickets (List.mem_of_mem_filter hr)
    (List.mem_of_mem_filter hr') heq

/-! ### Every happening keeps it -/

theorem start (now : α) : Sound ⟨Clock.start now, []⟩ where
  tickets := rfl
  waits := rfl
  once := .nil
  known := nofun

/-- A wait is opened. -/
theorem register (h : j.Sound) {r : Registration α} (hr : r.ticket = j.clock.issued)
    {due : Due α} (hwait : r.wait = ⟨j.clock.issued, due, j.clock.frame⟩) :
    Sound ⟨j.clock.register due, j.entries ++ [.registered r]⟩ := by
  have hregistrations : Journal.registrations
      ⟨j.clock.register due, j.entries ++ [.registered r]⟩ = j.registrations ++ [r] := by
    simp [registrations, Entry.registration?]
  have hresolved : Journal.resolved
      ⟨j.clock.register due, j.entries ++ [.registered r]⟩ = j.resolved := by
    simp [resolved, Entry.resolved?]
  have hnew : r.ticket ∉ j.resolved := by
    intro hmem
    exact absurd (h.known _ hmem) (by rw [hr]; exact Nat.lt_irrefl _)
  refine ⟨?_, ?_, ?_, ?_⟩
  · rw [hregistrations, List.map_append, h.tickets, List.map_singleton, hr]
    exact List.range_succ.symm
  · have hunresolved : Journal.unresolved
        ⟨j.clock.register due, j.entries ++ [.registered r]⟩ = j.unresolved ++ [r] := by
      unfold unresolved
      rw [hregistrations, hresolved, List.filter_append]
      simp [hnew]
    rw [hunresolved, List.map_append, ← h.waits, List.map_singleton, hwait]
    rfl
  · rw [hresolved]
    exact h.once
  · rw [hresolved]
    intro ticket ht
    exact Nat.lt_succ_of_lt (h.known ticket ht)

omit [Scalar α] in
theorem registrations_finish (j : Journal α) (p : Wait α → Bool) {entry : Nat → Entry α}
    (hentry : Entry.Ends entry) : (j.finish p entry).registrations = j.registrations := by
  have hnone : (Entry.registration? ∘ fun w : Wait α => entry w.ticket) = fun _ => none := by
    funext w
    exact (hentry w.ticket).1
  unfold registrations finish
  rw [List.filterMap_append, List.filterMap_map, hnone, List.filterMap_none, List.append_nil]

omit [Scalar α] in
theorem resolved_finish (j : Journal α) (p : Wait α → Bool) {entry : Nat → Entry α}
    (hentry : Entry.Ends entry) :
    (j.finish p entry).resolved = j.resolved ++ (j.clock.waits.filter p).map Wait.ticket := by
  have hsome : (Entry.resolved? ∘ fun w : Wait α => entry w.ticket) = some ∘ Wait.ticket := by
    funext w
    exact (hentry w.ticket).2
  unfold resolved finish
  rw [List.filterMap_append, List.filterMap_map, hsome, List.filterMap_eq_map]

/-- The tickets of the open waits that meet a condition belong to no other waits. -/
theorem mem_ended_iff (h : j.Sound) (p : Wait α → Bool) {r : Registration α}
    (hr : r ∈ j.unresolved) :
    r.ticket ∈ (j.clock.waits.filter p).map Wait.ticket ↔ p r.wait = true := by
  rw [h.filter_waits, List.map_map]
  constructor
  · intro hticket
    obtain ⟨r', hr', heq⟩ := List.mem_map.mp hticket
    obtain ⟨hr', hp⟩ := List.mem_filter.mp hr'
    rw [h.eq_of_ticket hr hr' heq.symm]
    exact hp
  · intro hp
    exact List.mem_map_of_mem (List.mem_filter.mpr ⟨hr, hp⟩)

theorem unresolved_finish (h : j.Sound) (p : Wait α → Bool) {entry : Nat → Entry α}
    (hentry : Entry.Ends entry) :
    (j.finish p entry).unresolved = j.unresolved.filter fun r => !p r.wait := by
  unfold unresolved
  rw [registrations_finish j p hentry, resolved_finish j p hentry, List.filter_filter]
  refine List.filter_congr fun r hr => ?_
  -- a wait that was over before stays so, and of the others just those with the condition end
  cases hopen : j.resolved.contains r.ticket with
  | true => simp_all
  | false =>
    have hr : r ∈ j.unresolved := List.mem_filter.mpr ⟨hr, by rw [hopen]; rfl⟩
    have hended := h.mem_ended_iff p hr
    cases hp : p r.wait <;> simp_all

/-- Some of the open waits are over, and that is written down. -/
theorem finish (h : j.Sound) (p : Wait α → Bool) {entry : Nat → Entry α}
    (hentry : Entry.Ends entry) : (j.finish p entry).Sound := by
  have hregistrations := registrations_finish j p hentry
  have hresolved := resolved_finish j p hentry
  -- the tickets that join the resolved ones are those of open waits
  have hopen : ∀ ticket ∈ (j.clock.waits.filter p).map Wait.ticket,
      ∃ r ∈ j.unresolved, r.ticket = ticket := by
    intro ticket hticket
    rw [h.filter_waits, List.map_map] at hticket
    obtain ⟨r, hr, heq⟩ := List.mem_map.mp hticket
    exact ⟨r, List.mem_of_mem_filter hr, heq⟩
  refine ⟨?_, ?_, ?_, ?_⟩
  · rw [hregistrations]
    exact h.tickets
  · rw [h.unresolved_finish p hentry]
    exact h.filter_waits fun w => !p w
  · rw [hresolved]
    refine List.nodup_append.mpr
      ⟨h.once, h.nodup_waits.sublist (List.filter_sublist.map Wait.ticket), ?_⟩
    rintro ticket hticket _ hticket' rfl
    obtain ⟨r, hr, rfl⟩ := hopen _ hticket'
    exact not_mem_resolved hr hticket
  · rw [hresolved]
    intro ticket hticket
    rcases List.mem_append.mp hticket with hold | hnew
    · exact h.known ticket hold
    · obtain ⟨r, hr, rfl⟩ := hopen _ hnew
      exact h.ticket_lt (List.mem_of_mem_filter hr)

/-- The waits that are due are released, and the others stay. -/
theorem release (h : j.Sound) :
    (j.happen .release).Sound ∧
      (j.happen .release).unresolved =
        j.unresolved.filter fun r => !r.isDue j.clock.now j.clock.frame := by
  refine ⟨h.finish j.clock.isDue Entry.ends_released,
    (h.unresolved_finish j.clock.isDue Entry.ends_released).trans ?_⟩
  exact List.filter_congr fun r _ => congrArg (!·) (isDue_wait j.clock r)

theorem happen (h : j.Sound) (e : Happening α) : (j.happen e).Sound := by
  cases e with
  | pause p =>
    cases hdue : j.clock.dueAfter p with
    | none =>
      simp only [Journal.happen, hdue]
      exact h
    | some due =>
      simp only [Journal.happen, hdue]
      refine h.register rfl ?_
      cases p with
      | nextFrame =>
        cases hdue
        rfl
      | sleep seconds =>
        simp only [Clock.dueAfter] at hdue
        split at hdue <;> cases hdue
        rfl
  | advance dt => exact ⟨h.tickets, h.waits, h.once, h.known⟩
  | release => exact h.release.1
  | drop ticket =>
    exact h.finish (fun w => w.ticket == ticket) Entry.ends_cancelled
  | dropAll =>
    have hall := h.finish (fun _ => true) Entry.ends_cancelled
    unfold Journal.finish at hall
    have hnone : j.clock.waits.filter (fun _ => !true) = [] := by simp
    have hsome : j.clock.waits.filter (fun _ => true) = j.clock.waits := by simp
    rw [hnone, hsome] at hall
    exact hall

end Sound

/-- Whatever happens, the clock agrees with the journal. -/
theorem sound_record (start : α) (happenings : List (Happening α)) :
    (record start happenings).Sound := by
  suffices h : ∀ j : Journal α, j.Sound → (happenings.foldl Journal.happen j).Sound from
    h _ (Sound.start start)
  induction happenings with
  | nil =>
    intro j h
    exact h
  | cons e rest ih =>
    intro j h
    exact ih (j.happen e) (h.happen e)

/-- The unresolved waits and the resolved ones are all that were opened. -/
theorem Sound.length_unresolved (h : j.Sound) :
    j.unresolved.length + j.resolved.length = j.registrations.length := by
  -- every resolved ticket is that of one registration
  have hperm : j.resolved.Perm
      ((j.registrations.filter fun r => j.resolved.contains r.ticket).map Registration.ticket) := by
    refine (List.perm_ext_iff_of_nodup h.once
      (h.nodup_tickets.sublist (List.filter_sublist.map _))).mpr fun ticket => ?_
    constructor
    · intro hticket
      have hrange := List.mem_range.mpr (h.known ticket hticket)
      rw [← h.tickets] at hrange
      obtain ⟨r, hr, rfl⟩ := List.mem_map.mp hrange
      exact List.mem_map_of_mem (List.mem_filter.mpr ⟨hr, List.contains_iff_mem.mpr hticket⟩)
    · intro hticket
      obtain ⟨r, hr, rfl⟩ := List.mem_map.mp hticket
      exact List.contains_iff_mem.mp (List.mem_filter.mp hr).2
  rw [hperm.length_eq, List.length_map, Nat.add_comm]
  exact (List.length_eq_length_filter_add
    fun r : Registration α => j.resolved.contains r.ticket).symm

/-! ### Wake-ups -/

/-- No wake-up is lost, comes twice, or comes at the wrong time: a wait is told by its ticket, it is
over at most once and not before it was opened, and the next release is for the unresolved waits
that are due, in the order in which they were opened, while the others stay open in theirs. -/
structure Punctual (j : Journal α) : Prop where
  distinct : (j.registrations.map Registration.ticket).Nodup
  once : j.resolved.Nodup
  known : ∀ ticket ∈ j.resolved, ticket ∈ j.registrations.map Registration.ticket
  waiting : j.clock.waits.map Wait.ticket = j.unresolved.map Registration.ticket
  pending : j.clock.pending = j.unresolved.length
  count : j.clock.pending + j.resolved.length = j.registrations.length
  answer : j.clock.due.length = j.due.length
  released : (j.happen .release).entries =
    j.entries ++ j.due.map fun r => .released r.ticket
  remaining : (j.happen .release).unresolved =
    j.unresolved.filter fun r => !r.isDue j.clock.now j.clock.frame

theorem Sound.punctual (h : j.Sound) : j.Punctual where
  distinct := h.nodup_tickets
  once := h.once
  known := by
    intro ticket hticket
    rw [h.tickets]
    exact List.mem_range.mpr (h.known ticket hticket)
  waiting := by
    rw [h.waits, List.map_map]
    rfl
  pending := by
    unfold Clock.pending
    rw [h.waits, List.length_map]
  count := by
    unfold Clock.pending
    rw [h.waits, List.length_map, h.length_unresolved]
  answer := by rw [h.due_eq, List.length_map]
  released := by
    show j.entries ++ j.clock.due.map (fun w => .released w.ticket) = _
    rw [h.due_eq, List.map_map]
    rfl
  remaining := h.release.2

end Journal

end ArmRover
