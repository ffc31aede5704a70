import ArmRover.Scalar.Binary64
import ArmRover.Settings.Sections
import Mathlib.Tactic.ByContra

/-!
# Overrides

A user's configuration only changes what it names. An entry that the user gives takes the place of
the built-in one, all other entries of the section stay, and what is not built in is added. Only a
section that is given as something else than a mapping, null among others, is lost as a whole: all
of its built-in entries go, though the user names none of them.

* `Fields.get?_merge`, `Fields.merge_merge` — entries that are put over others, once and twice.
* `Sections.get?_override`, `Sections.override_override` — sections that are put over others.
* `Sections.Proper`, `Sections.lookup?` — mappings that name nothing twice, and their entries.
* `Sections.load?_overrides` — the configuration for a user's mapping.
-/

namespace ArmRover

/-! ### Entries -/

namespace Fields

variable {β : Type} {key : String} {value : β} {fields base new : Fields β}

/-- No name has two entries. -/
def Distinct (fields : Fields β) : Prop := (fields.map Prod.fst).Nodup

instance (fields : Fields β) : Decidable fields.Distinct := inferInstanceAs (Decidable (List.Nodup _))

theorem get?_eq_none (h : key ∉ fields.map Prod.fst) : fields.get? key = none := by
  induction fields with
  | nil => rfl
  | cons entry rest ih =>
    obtain ⟨k, v⟩ := entry
    rw [List.map_cons, List.mem_cons, not_or] at h
    rw [get?, if_neg (Ne.symm h.1)]
    exact ih h.2

theorem mem_of_get? (h : fields.get? key = some value) : (key, value) ∈ fields := by
  induction fields with
  | nil => cases h
  | cons entry rest ih =>
    obtain ⟨k, v⟩ := entry
    rw [get?] at h
    split at h
    · next hk =>
      cases h
      rw [hk]
      exact List.mem_cons_self
    · exact List.mem_cons_of_mem _ (ih h)

theorem get?_of_mem (hfields : fields.Distinct) (h : (key, value) ∈ fields) :
    fields.get? key = some value := by
  induction fields with
  | nil => cases h
  | cons entry rest ih =>
    obtain ⟨k, v⟩ := entry
    obtain ⟨hk, hrest⟩ := List.nodup_cons.mp hfields
    rcases List.mem_cons.mp h with heq | hmem
    · cases heq
      exact if_pos rfl
    · have hne : k ≠ key := fun heq => hk (List.mem_map.mpr ⟨_, hmem, heq.symm⟩)
      rw [get?, if_neg hne]
      exact ih hrest hmem

/-- An entry that is there already changes nothing. -/
theorem put_of_get? (h : fields.get? key = some value) : fields.put key value = fields := by
  induction fields with
  | nil => cases h
  | cons entry rest ih =>
    obtain ⟨k, v⟩ := entry
    rw [get?] at h
    rw [put]
    split at h
    · next hk =>
      cases h
      rw [if_pos hk]
    · next hk => rw [if_neg hk, ih h]

/-- New entries come first, whatever the order of the names. -/
theorem get?_merge (hnew : new.Distinct) (base : Fields β) (key : String) :
    (merge base new).get? key = (new.get? key).or (base.get? key) := by
  induction new generalizing base with
  | nil => rfl
  | cons entry rest ih =>
    obtain ⟨k, v⟩ := entry
    obtain ⟨hk, hrest⟩ := List.nodup_cons.mp hnew
    show (merge (base.put k v) rest).get? key = _
    rw [ih hrest, get?]
    split
    · next heq =>
      subst heq
      rw [get?_eq_none hk, get?_put_self]
      rfl
    · next hne => rw [get?_put_of_ne hne]

theorem merge_of_get? (h : ∀ entry ∈ new, base.get? entry.1 = some entry.2) :
    merge base new = base := by
  induction new with
  | nil => rfl
  | cons entry rest ih =>
    obtain ⟨hentry, hrest⟩ := List.forall_mem_cons.mp h
    show merge (base.put entry.1 entry.2) rest = base
    rw [put_of_get? hentry]
    exact ih hrest

theorem merge_self (hnew : new.Distinct) : merge new new = new :=
  merge_of_get? fun _ hentry => get?_of_mem hnew hentry

/-- The same entries once more change nothing. -/
theorem merge_merge (hnew : new.Distinct) (base : Fields β) :
    merge (merge base new) new = merge base new := by
  refine merge_of_get? fun entry hentry => ?_
  rw [get?_merge hnew, get?_of_mem hnew hentry]
  rfl

end Fields

/-! ### Sections -/

namespace Sections

open Fields

variable {α : Type} {config sections : Sections α} {name : String} {value : Value α}

/-- What a section becomes when a new one is put over it. -/
def laidOver (old : Option (Value α)) (new : Value α) : Value α :=
  match old, new with
  | some (.map old), .map fields => .map (merge old fields)
  | _, _ => new

theorem laidOver_of_not_map (old : Option (Value α)) (h : ∀ fields, value ≠ .map fields) :
    laidOver old value = value := by
  unfold laidOver
  split
  · exact absurd rfl (h _)
  · rfl

theorem putSection_eq (config : Sections α) (name : String) (new : Value α) :
    config.putSection name new = config.put name (laidOver (config.get? name) new) := by
  unfold putSection laidOver
  -- both go by the kinds of the two values, whatever is looked up
  generalize config.get? name = old
  rcases old with - | old
  · rfl
  · cases old <;> cases new <;> rfl

/-- A section is the user's, laid over the one before it, or else it is the one before it. -/
theorem get?_override (hsections : sections.Distinct) (config : Sections α) (name : String) :
    (config.override sections).get? name =
      ((sections.get? name).map (laidOver (config.get? name))).or (config.get? name) := by
  induction sections generalizing config with
  | nil => rfl
  | cons entry rest ih =>
    obtain ⟨n, new⟩ := entry
    obtain ⟨hn, hrest⟩ := List.nodup_cons.mp hsections
    show (override (config.putSection n new) rest).get? name = _
    rw [ih hrest, putSection_eq, get?]
    split
    · next heq =>
      subst heq
      rw [get?_eq_none hn, get?_put_self]
      rfl
    · next hne => rw [get?_put_of_ne hne]

theorem override_of_putSection
    (h : ∀ entry ∈ sections, config.putSection entry.1 entry.2 = config) :
    config.override sections = config := by
  induction sections with
  | nil => rfl
  | cons entry rest ih =>
    obtain ⟨hentry, hrest⟩ := List.forall_mem_cons.mp h
    show override (config.putSection entry.1 entry.2) rest = config
    rw [hentry]
    exact ih hrest

/-- A mapping of sections that names nothing twice. -/
structure Proper (sections : Sections α) : Prop where
  names : sections.Distinct
  keys : ∀ name fields, sections.get? name = some (.map fields) → Distinct fields

theorem laidOver_laidOver (old : Option (Value α))
    (hvalue : ∀ fields, value = .map fields → Distinct fields) :
    laidOver (some (laidOver old value)) value = laidOver old value := by
  by_cases h : ∃ fields, value = .map fields
  · obtain ⟨fields, rfl⟩ := h
    have hfields := hvalue fields rfl
    -- twice over a mapping, or once over itself
    rcases old with - | ⟨- | - | - | - | - | old⟩
    case some.map => exact congrArg Value.map (merge_merge hfields old)
    all_goals exact congrArg Value.map (merge_self hfields)
  · have hnot := not_exists.mp h
    rw [laidOver_of_not_map _ hnot, laidOver_of_not_map _ hnot]

/-- The same sections once more change nothing. -/
theorem override_override (h : Proper sections) (config : Sections α) :
    (config.override sections).override sections = config.override sections := by
  refine override_of_putSection fun entry hentry => ?_
  obtain ⟨name, value⟩ := entry
  have hvalue : sections.get? name = some value := get?_of_mem h.names hentry
  have hconfig : (config.override sections).get? name =
      some (laidOver (config.get? name) value) := by
    rw [get?_override h.names, hvalue]
    rfl
  have hkeys : ∀ fields, value = .map fields → Distinct fields :=
    fun fields heq => h.keys name fields (heq ▸ hvalue)
  rw [putSection_eq, hconfig, laidOver_laidOver _ hkeys]
  exact put_of_get? hconfig

/-! ### Entries of sections -/

/-- The entry of a section, if the section is a mapping that has it. -/
def lookup? (config : Sections α) (name key : String) : Option (Value α) :=
  match config.get? name with
  | some (.map fields) => get? key fields
  | _ => none

/-- If the section is named at all, it is given as a mapping. -/
def MappingIfNamed (sections : Sections α) (name : String) : Prop :=
  ∀ value, sections.get? name = some value → ∃ fields, value = .map fields

/-- In a section that is not given as something else than a mapping, every entry is the user's, or
else the one before it. -/
theorem lookup?_override (h : Proper sections) (hname : MappingIfNamed sections name)
    (config : Sections α) (key : String) :
    (config.override sections).lookup? name key =
      (lookup? sections name key).or (config.lookup? name key) := by
  unfold lookup?
  rw [get?_override h.names]
  cases hsection : sections.get? name with
  | none => rfl
  | some value =>
    obtain ⟨fields, rfl⟩ := hname value hsection
    rcases config.get? name with - | ⟨- | - | - | - | - | old⟩
    case some.map => exact get?_merge (h.keys name fields hsection) old key
    all_goals exact (Option.or_none).symm

/-- A mapping stays one exactly if no section of another kind is put in its place. -/
theorem exists_map_override_iff (hsections : Distinct sections) {old : Fields (Value α)}
    (hold : config.get? name = some (.map old)) :
    (∃ fields, (config.override sections).get? name = some (.map fields)) ↔
      MappingIfNamed sections name := by
  rw [get?_override hsections, hold]
  constructor
  · rintro ⟨fields, hfields⟩ value hvalue
    by_contra hnot
    rw [hvalue, Option.map_some, laidOver_of_not_map _ (not_exists.mp hnot)] at hfields
    exact hnot ⟨fields, Option.some.inj hfields⟩
  · intro hmapping
    cases hvalue : sections.get? name with
    | none => exact ⟨old, rfl⟩
    | some value =>
      obtain ⟨fields, rfl⟩ := hmapping value hvalue
      exact ⟨merge old fields, rfl⟩

/-! ### The configuration for a user's mapping -/

variable [Scalar α]

/-- Every built-in section is a mapping. -/
theorem exists_map_of_standard (h : (standard : Sections α).get? name = some value) :
    ∃ fields, value = .map fields := by
  have hall : ∀ entry ∈ (standard : Sections α), ∃ fields, entry.2 = .map fields := by
    simp [standard]
  exact hall _ (mem_of_get? h)

theorem load?_map (sections : Sections α) :
    load? (.map sections) = .ok (standard.override sections) := by
  cases sections <;> rfl

/-- Every mapping that names nothing twice gives a configuration. A built-in section stays a mapping
exactly if the user leaves it out or gives a mapping for it; then each of its entries is the
user's, if the user names it, and else the built-in one, and the user's other entries are added. A
section that is not built in is there as the user gives it, and one that is given as something else
than a mapping takes the place of the built-in one. What the user does not name stays, and the same
mapping once more changes nothing. -/
theorem load?_overrides {sections : Sections α} (h : Proper sections) :
    ∃ config : Sections α, load? (.map sections) = .ok config ∧
      (∀ name, ((standard : Sections α).get? name).isSome →
        ((∃ fields, config.get? name = some (.map fields)) ↔ MappingIfNamed sections name)) ∧
      (∀ name, MappingIfNamed sections name → ∀ key,
        config.lookup? name key = (lookup? sections name key).or (standard.lookup? name key)) ∧
      (∀ name value, sections.get? name = some value →
        (standard : Sections α).get? name = none ∨ (∀ fields, value ≠ .map fields) →
          config.get? name = some value) ∧
      (∀ name, sections.get? name = none → config.get? name = standard.get? name) ∧
      config.override sections = config := by
  refine ⟨standard.override sections, load?_map sections, ?_, ?_, ?_, ?_, ?_⟩
  · intro name hname
    obtain ⟨value, hold⟩ := Option.isSome_iff_exists.mp hname
    obtain ⟨old, rfl⟩ := exists_map_of_standard hold
    exact exists_map_override_iff h.names hold
  · intro name hname key
    exact lookup?_override h hname standard key
  · intro name value hvalue hplace
    rw [get?_override h.names, hvalue]
    rcases hplace with hnone | hnot
    · rw [hnone]
      rfl
    · rw [Option.map_some, laidOver_of_not_map _ hnot]
      rfl
  · intro name hnone
    rw [get?_override h.names, hnone]
    rfl
  · exact override_override h standard

/-- A mapping with one section that is built in, one that is not, and one of null. -/
theorem load?_overrides_mixed :
    let sections : Sections Float :=
      [("executor", .map [("reset_settle", .real 0.25), ("pause", whole 1)]), ("ik", .null),
        ("lab", .map [("room", .text "A")])]
    Proper sections ∧
      ∃ config : Sections Float, load? (.map sections) = .ok config ∧
        config.lookup? "executor" "reset_settle" = some (.real 0.25) ∧
        config.lookup? "executor" "light_settle" = some (.real 0.1) ∧
        config.lookup? "executor" "pause" = some (whole 1) ∧
        config.lookup? "rover" "reference_rate" = some (whole 60) ∧
        config.get? "ik" = some .null ∧
        config.get? "lab" = some (.map [("room", .text "A")]) ∧
        config.override sections = config := by
  intro sections
  have hproper : Proper sections := by
    refine ⟨by decide, fun name fields hfields => ?_⟩
    have hall : ∀ entry ∈ sections, ∀ fields, entry.2 = .map fields → Distinct fields := by
      simp [sections, Distinct]
    exact hall _ (mem_of_get? hfields) fields rfl
  obtain ⟨config, hload, -, hentry, hplace, -, hagain⟩ := load?_overrides hproper
  have hexecutor : MappingIfNamed sections "executor" := by
    rintro value ⟨⟩
    exact ⟨_, rfl⟩
  have hrover : MappingIfNamed sections "rover" := nofun
  refine ⟨hproper, config, hload, ?_, ?_, ?_, ?_, ?_, ?_, hagain⟩
  · rw [hentry _ hexecutor]
    rfl
  · rw [hentry _ hexecutor]
    rfl
  · rw [hentry _ hexecutor]
    rfl
  · rw [hentry _ hrover]
    rfl
  · exact hplace "ik" .null rfl (.inr nofun)
  · exact hplace "lab" _ rfl (.inl rfl)

/-- A section without entries, given as null, takes the built-in entries of the gripper away. -/
theorem gripper_lost_of_null :
    ¬ ∃ config : Sections Float, load? (.map [("gripper", .null)]) = .ok config ∧
      (∃ fields, config.get? "gripper" = some (.map fields)) := by
  rintro ⟨config, hload, fields, hfields⟩
  obtain rfl := Except.ok.inj hload
  cases hfields

end Sections

end ArmRover
