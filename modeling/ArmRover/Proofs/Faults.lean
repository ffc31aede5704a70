import ArmRover.Proofs.Action
import ArmRover.Value.Measure

/-!
# The faults of a run

A run of many frames gives up on a program that is not done in time, or when it has used up the
frames that were granted. Nothing else gives up in that way: whatever is computed on the way has
faults of its own.

* `Fault.Own` — the faults that are not those of a run, `Fault.own_again` — also when they are told
  again.
* `Action.Fails`, `Action.Throws` — computations, without and with a state, of which all faults meet
  a condition, with one rule for each way to put a computation together.
* `Number.fails_scalar?`, `Value.fails_measure?` and others — computations with plain data.
-/

namespace ArmRover

variable {α β γ σ τ : Type}

/-- A fault that is not the one of a run that gives up on a program. -/
@[simp] def Fault.Own : Fault α → Prop
  | timedOut _ | outOfFrames => False
  | _ => True

theorem Fault.own_again {fault : Fault α} (h : fault.Own) : fault.again.Own := by
  cases fault <;> trivial

namespace Action

/-- If the computation fails, then with a fault that meets the condition. -/
def Fails (E : Fault α → Prop) (answer : Except (Fault α) β) : Prop :=
  ∀ fault, answer = .error fault → E fault

/-- If the action fails, then with a fault that meets the condition. -/
def Throws (E : Fault α → Prop) (act : Action α σ β) : Prop :=
  ∀ s fault t, act s = .error fault t → E fault

variable {E : Fault α → Prop}

/-! ### Without a state -/

@[simp] theorem fails_ok (b : β) : Fails E (.ok b) := nofun

@[simp] theorem fails_pure (b : β) : Fails E (pure b : Except (Fault α) β) := nofun

@[simp] theorem fails_error {fault : Fault α} :
    Fails E (.error fault : Except (Fault α) β) ↔ E fault :=
  ⟨fun h => h fault rfl, fun h _ hfault => Except.error.inj hfault ▸ h⟩

@[simp] theorem fails_throw {fault : Fault α} :
    Fails E (throw fault : Except (Fault α) β) ↔ E fault :=
  fails_error

@[simp] theorem fails_bind {a : Except (Fault α) β} {f : β → Except (Fault α) γ} (ha : Fails E a)
    (hf : ∀ b, Fails E (f b)) : Fails E (a >>= f) := by
  cases a with
  | ok b => exact hf b
  | error fault => exact fails_error.mpr (fails_error.mp ha)

@[simp] theorem fails_map {a : Except (Fault α) β} {f : β → γ} (ha : Fails E a) :
    Fails E (f <$> a) := by
  cases a with
  | ok b => exact fails_ok (f b)
  | error fault => exact fails_error.mpr (fails_error.mp ha)

@[simp] theorem fails_ite {c : Prop} [Decidable c] {a b : Except (Fault α) β} (ha : Fails E a)
    (hb : Fails E b) : Fails E (if c then a else b) := by
  split
  · exact ha
  · exact hb

/-- A computation that goes on only if it was not stopped. -/
theorem fails_unless {c : Prop} [Decidable c] {fault : Fault α} {f : PUnit → Except (Fault α) β}
    (h : E fault) (hf : Fails E (f ⟨⟩)) : Fails E (if c then throw fault >>= f else f ⟨⟩) :=
  fails_ite (fails_error.mpr h) hf

@[simp] theorem fails_mapM {f : β → Except (Fault α) γ} (hf : ∀ b, Fails E (f b)) (items : List β) :
    Fails E (items.mapM f) := by
  induction items with
  | nil => exact fails_pure []
  | cons b rest ih =>
    rw [List.mapM_cons]
    exact fails_bind (hf b) fun c => fails_bind ih fun cs => fails_pure (c :: cs)

@[simp] theorem fails_foldlM {f : γ → β → Except (Fault α) γ} (hf : ∀ c b, Fails E (f c b))
    (items : List β) (c : γ) : Fails E (items.foldlM f c) := by
  induction items generalizing c with
  | nil => exact fails_pure c
  | cons b rest ih =>
    rw [List.foldlM_cons]
    exact fails_bind (hf c b) ih

/-! ### With a state -/

@[simp] theorem throws_pure (b : β) : Throws E (pure b : Action α σ β) := nofun

@[simp] theorem throws_throw {fault : Fault α} (h : E fault) :
    Throws E (throw fault : Action α σ β) := by
  rintro s _ t ⟨⟩
  exact h

@[simp] theorem throws_lift {answer : Except (Fault α) β} (h : Fails E answer) :
    Throws E (lift answer : Action α σ β) := by
  cases answer with
  | ok b => exact throws_pure b
  | error fault => exact throws_throw (fails_error.mp h)

@[simp] theorem throws_get : Throws E (get : Action α σ σ) := nofun

@[simp] theorem throws_set (s : σ) : Throws E (set s : Action α σ PUnit) := nofun

@[simp] theorem throws_modify (f : σ → σ) : Throws E (modify f : Action α σ PUnit) := nofun

@[simp] theorem throws_modifyGet (f : σ → β × σ) :
    Throws E (modifyGet f : Action α σ β) := nofun

@[simp] theorem throws_bind {a : Action α σ β} {f : β → Action α σ γ} (ha : Throws E a)
    (hf : ∀ b, Throws E (f b)) : Throws E (a >>= f) := by
  intro s fault u h
  cases hrun : a s with
  | ok b t =>
    rw [run_bind hrun] at h
    exact hf b t fault u h
  | error fault' t =>
    rw [run_bind_error hrun] at h
    cases h
    exact ha s _ _ hrun

/-- What follows a computation without a state only matters when that has an answer. -/
theorem throws_lift_bind {answer : Except (Fault α) β} {f : β → Action α σ γ}
    (h : Fails E answer) (hf : ∀ b, answer = .ok b → Throws E (f b)) :
    Throws E (lift answer >>= f) := by
  cases answer with
  | ok b => exact hf b rfl
  | error fault => exact throws_throw (fails_error.mp h)

@[simp] theorem throws_ite {c : Prop} [Decidable c] {a b : Action α σ β} (ha : Throws E a)
    (hb : Throws E b) : Throws E (if c then a else b) := by
  split
  · exact ha
  · exact hb

/-- Something that is only done at times, in front of what is done next. -/
theorem throws_when {c : Prop} [Decidable c] {a : Action α σ PUnit} {f : PUnit → Action α σ β}
    (ha : Throws E a) (hf : Throws E (f ⟨⟩)) : Throws E (if c then a >>= f else f ⟨⟩) :=
  throws_ite (throws_bind ha fun _ => hf) hf

@[simp] theorem throws_each {items : List β} {act : β → Action α σ Unit}
    (h : ∀ b, Throws E (act b)) : Throws E (each items act) := by
  induction items with
  | nil => exact throws_pure ()
  | cons b rest ih => exact throws_bind (h b) fun _ => ih

@[simp] theorem throws_on {part : σ → τ} {replace : σ → τ → σ} {act : Action α τ β}
    (h : Throws E act) : Throws E (on part replace act) := by
  intro s fault t hrun
  unfold on at hrun
  cases hact : act (part s) with
  | ok b p =>
    rw [hact] at hrun
    cases hrun
  | error fault' p =>
    rw [hact] at hrun
    cases hrun
    exact h _ _ _ hact

end Action

open ArmRover.Action

/-! ### Numbers -/

variable [Scalar α]

namespace Scalar

@[simp] theorem fails_finite? (x : α) : Fails Fault.Own (finite? x) := by
  simp [finite?]

@[simp] theorem fails_floor? (x : α) : Fails Fault.Own (floor? x) := by
  simp [floor?]

@[simp] theorem fails_round? (x : α) : Fails Fault.Own (round? x) := by
  simp [round?]

@[simp] theorem fails_sinCos? (x : α) : Fails Fault.Own (sinCos? x) := by
  simp [sinCos?]

@[simp] theorem fails_divide? (x y : α) : Fails Fault.Own (divide? x y) := by
  simp [divide?]

@[simp] theorem fails_square? (x : α) : Fails Fault.Own (square? x) := by
  simp [square?]

end Scalar

namespace Number

@[simp] theorem fails_scalar? (n : Number α) : Fails Fault.Own n.scalar? := by
  cases n <;> simp [scalar?]

@[simp] theorem fails_product? (m n : Number α) : Fails Fault.Own (m.product? n) := by
  unfold product?
  split <;> simp

@[simp] theorem fails_square? (n : Number α) : Fails Fault.Own n.square? := by
  cases n <;> simp [square?]

@[simp] theorem fails_quotient? (n : Number α) (k : Nat) : Fails Fault.Own (n.quotient? k) := by
  cases n <;> simp [quotient?]

omit [Scalar α] in
@[simp] theorem fails_whole? (n : Number α) : Fails Fault.Own n.whole? := by
  cases n <;> simp [whole?]

end Number

namespace Value

omit [Scalar α] in
@[simp] theorem fails_number? (v : Value α) : Fails Fault.Own v.number? := by
  cases v <;> simp [number?]

@[simp] theorem fails_scalar? (v : Value α) : Fails Fault.Own v.scalar? := by
  simp [scalar?]

omit [Scalar α] in
@[simp] theorem fails_copies? (n : Int) (size : Nat) :
    Fails Fault.Own (copies? n size : Except (Fault α) Nat) := by
  simp [copies?]

omit [Scalar α] in
@[simp] theorem fails_repeated? (n : Int) (v : Value α) : Fails Fault.Own (v.repeated? n) := by
  cases v <;> simp [repeated?]

@[simp] theorem fails_product? (v w : Value α) : Fails Fault.Own (v.product? w) := by
  unfold product?
  split <;> simp

@[simp] theorem fails_numeric? (v : Value α) : Fails Fault.Own v.numeric? := by
  unfold numeric?
  split
  · split <;> simp
  · simp

@[simp] theorem fails_measure? (v : Value α) : Fails Fault.Own v.measure? := by
  unfold measure?
  split
  · split <;> simp
  · simp

omit [Scalar α] in
@[simp] theorem fails_ask? (question : Number α → Bool) (v : Value α) :
    Fails Fault.Own (v.ask? question) := by
  simp [ask?]

@[simp] theorem fails_askComputed? (question : Number α → Bool) (v : Value α) :
    Fails Fault.Own (v.askComputed? question) := by
  unfold askComputed?
  split
  · split
    · simp
    · refine fails_bind (fails_mapM fails_number? _) fun numbers => ?_
      split <;> simp
  · simp

end Value

omit [Scalar α] in
@[simp] theorem Measure.fails_only? (m : Measure α) : Fails Fault.Own m.only? := by
  unfold only?
  split <;> simp

end ArmRover
