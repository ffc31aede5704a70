import ArmRover.Fault
import Mathlib.Data.List.Forall2

/-!
# Laws of actions

Two kinds of laws. A law about one run says that a property of the state is preserved, or that the
action does not fail and what it leaves. A law about two runs compares their states all the way: two
actions are related when, from related states, they end alike, both with answers that correspond or
both with the same fault, and in either case in related states. Faults count in both kinds, since an
action keeps what it has done by then.

* `Action.bind_eq_ok`, `Action.of_foldlM_eq_ok`, `Action.forall₂_of_mapM_eq_ok` — computations
  without a state.
* `Action.Preserves` — actions that preserve a property of the state.
* `Action.Yields` — actions that do not fail, with what they leave.
* `Action.Alike` — two ends that correspond, `Action.Related` — related actions.
* `Action.preserves_bind`, `Action.yields_bind`, `Action.related_bind` and others — one rule for
  each way to put an action together.
-/

namespace ArmRover.Action

variable {α σ τ σ' τ' β γ δ ε : Type} {R : σ → τ → Prop} {P : σ' → τ' → Prop} {Q : β → γ → Prop}

/-! ## Without a state -/

/-- Two computations one after the other have an answer if both have. -/
theorem bind_eq_ok {a : Except (Fault α) β} {f : β → Except (Fault α) γ} {c : γ} :
    a >>= f = .ok c ↔ ∃ b, a = .ok b ∧ f b = .ok c := by
  cases a with
  | ok b => exact ⟨fun h => ⟨b, rfl, h⟩, fun ⟨_, hb, h⟩ => Except.ok.inj hb ▸ h⟩
  | error fault => exact ⟨nofun, fun ⟨_, hb, _⟩ => nomatch hb⟩

/-- A computation that goes on only if it was not stopped. -/
theorem of_unless_ok {c : Prop} [Decidable c] {fault : Fault α} {f : PUnit → Except (Fault α) β}
    {b : β} (h : (if c then throw fault >>= f else f ⟨⟩) = .ok b) : ¬ c ∧ f ⟨⟩ = .ok b := by
  split at h
  case isTrue => cases h
  case isFalse hc => exact ⟨hc, h⟩

/-- What every item of a list keeps, the whole list does. -/
theorem of_foldlM_eq_ok {P : γ → Prop} {f : γ → β → Except (Fault α) γ}
    (hf : ∀ b {c d}, f c b = .ok d → P c → P d) {items : List β} {c d : γ}
    (h : items.foldlM f c = .ok d) (hc : P c) : P d := by
  induction items generalizing c with
  | nil => exact Except.ok.inj h ▸ hc
  | cons b rest ih =>
    rw [List.foldlM_cons] at h
    obtain ⟨next, hnext, hrest⟩ := bind_eq_ok.mp h
    exact ih hrest (hf b hnext hc)

/-- The answers of a computation for each item of a list. -/
theorem forall₂_of_mapM_eq_ok {f : β → Except (Fault α) γ} {items : List β} {answers : List γ}
    (h : items.mapM f = .ok answers) : List.Forall₂ (fun b c => f b = .ok c) items answers := by
  induction items generalizing answers with
  | nil =>
    obtain rfl := Except.ok.inj h
    exact .nil
  | cons b rest ih =>
    rw [List.mapM_cons] at h
    obtain ⟨c, hc, h⟩ := bind_eq_ok.mp h
    obtain ⟨cs, hcs, h⟩ := bind_eq_ok.mp h
    obtain rfl := Except.ok.inj h
    exact .cons hc (ih hcs)

/-! ## One run -/

/-- The state at the end, after an answer or a fault. -/
def final : EStateM.Result (Fault α) σ β → σ
  | .ok _ s => s
  | .error _ s => s

/-- Actions after which a property of the state holds if it held before, also when they fail. -/
def Preserves (P : σ → Prop) (a : Action α σ β) : Prop := ∀ s, P s → P (final (a s))

theorem run_bind {a : Action α σ β} {f : β → Action α σ γ} {b : β} {s t : σ}
    (h : a s = .ok b t) : (a >>= f) s = f b t := by
  show EStateM.bind a f s = _
  unfold EStateM.bind
  rw [h]

theorem run_get_bind (f : σ → Action α σ γ) (s : σ) : (get >>= f) s = f s s := rfl

theorem run_lift_bind (b : β) (f : β → Action α σ γ) (s : σ) :
    ((lift (.ok b) : Action α σ β) >>= f) s = f b s := rfl

theorem run_bind_error {a : Action α σ β} {f : β → Action α σ γ} {fault : Fault α} {s t : σ}
    (h : a s = .error fault t) : (a >>= f) s = .error fault t := by
  show EStateM.bind a f s = _
  unfold EStateM.bind
  rw [h]

/-- A run that answers is one of actions that do. -/
theorem exists_of_bind_eq_ok {a : Action α σ β} {f : β → Action α σ γ} {c : γ} {s u : σ}
    (h : (a >>= f) s = .ok c u) : ∃ b t, a s = .ok b t ∧ f b t = .ok c u := by
  cases hrun : a s with
  | ok b t => exact ⟨b, t, rfl, (run_bind hrun).symm.trans h⟩
  | error fault t =>
    rw [run_bind_error hrun] at h
    cases h

/-- What is done for more items goes on where it stopped for the first ones. -/
theorem each_append {items : List β} {act : β → Action α σ Unit} {s t : σ}
    (h : each items act s = .ok () t) (more : List β) :
    each (items ++ more) act s = each more act t := by
  induction items generalizing s with
  | nil =>
    cases h
    rfl
  | cons b rest ih =>
    obtain ⟨_, u, hact, hrest⟩ := exists_of_bind_eq_ok h
    show (act b >>= fun _ => each (rest ++ more) act) s = _
    rw [run_bind hact]
    exact ih hrest

/-- A computation without a state leaves the state as it is. -/
theorem of_lift_eq_ok {answer : Except (Fault α) β} {b : β} {s t : σ}
    (h : (lift answer : Action α σ β) s = .ok b t) : answer = .ok b ∧ s = t := by
  cases answer with
  | ok b => cases h; exact ⟨rfl, rfl⟩
  | error fault => cases h

section Preserves

variable {P : σ → Prop}

/-- A run that answers leaves what is preserved. -/
theorem Preserves.of_ok {a : Action α σ β} (ha : Preserves P a) {b : β} {s t : σ}
    (hrun : a s = .ok b t) (h : P s) : P t := by
  have hend := ha s h
  rw [hrun] at hend
  exact hend

theorem Preserves.and {P' : σ → Prop} {a : Action α σ β} (ha : Preserves P a)
    (ha' : Preserves P' a) : Preserves (fun s => P s ∧ P' s) a :=
  fun s h => ⟨ha s h.1, ha' s h.2⟩

theorem preserves_pure (b : β) : Preserves P (pure b : Action α σ β) := fun _ h => h

theorem preserves_throw (fault : Fault α) : Preserves P (throw fault : Action α σ β) := fun _ h => h

theorem preserves_lift (answer : Except (Fault α) β) :
    Preserves P (lift answer : Action α σ β) := by
  cases answer with
  | ok b => exact preserves_pure b
  | error fault => exact preserves_throw fault

theorem preserves_get : Preserves P (get : Action α σ σ) := fun _ h => h

theorem preserves_set {s : σ} (h : P s) : Preserves P (set s : Action α σ PUnit) := fun _ _ => h

/-- After the state is read it is known. -/
theorem preserves_get_bind {f : σ → Action α σ γ} (hf : ∀ s, P s → P (final (f s s))) :
    Preserves P (get >>= f) :=
  hf

theorem preserves_modify {f : σ → σ} (h : ∀ s, P s → P (f s)) :
    Preserves P (modify f : Action α σ PUnit) := h

theorem preserves_modifyGet {f : σ → β × σ} (h : ∀ s, P s → P (f s).2) :
    Preserves P (modifyGet f : Action α σ β) := h

theorem preserves_bind {a : Action α σ β} {f : β → Action α σ γ} (ha : Preserves P a)
    (hf : ∀ b, Preserves P (f b)) : Preserves P (a >>= f) := by
  intro s hs
  have h := ha s hs
  cases hrun : a s with
  | ok b t =>
    rw [hrun] at h
    rw [run_bind hrun]
    exact hf b t h
  | error fault t =>
    rw [hrun] at h
    rw [run_bind_error hrun]
    exact h

/-- What holds after the first of two actions is enough at the end if it is wherever the first one
may have stopped, and the second one goes on from it. -/
theorem final_bind {a : Action α σ β} {f : β → Action α σ γ} {s : σ} {Q : σ → Prop}
    (ha : P (final (a s))) (hstop : ∀ t, P t → Q t) (hf : ∀ b t, P t → Q (final (f b t))) :
    Q (final ((a >>= f) s)) := by
  cases hrun : a s with
  | ok b t =>
    rw [hrun] at ha
    rw [run_bind hrun]
    exact hf b t ha
  | error fault t =>
    rw [hrun] at ha
    rw [run_bind_error hrun]
    exact hstop t ha

/-- What follows a computation without a state only matters when that has an answer. -/
theorem preserves_lift_bind {answer : Except (Fault α) β} {f : β → Action α σ γ}
    (hf : ∀ b, answer = .ok b → Preserves P (f b)) : Preserves P (lift answer >>= f) := by
  cases answer with
  | ok b => exact hf b rfl
  | error fault => exact preserves_throw fault

theorem preserves_ite {c : Prop} [Decidable c] {a b : Action α σ β} (ha : Preserves P a)
    (hb : Preserves P b) : Preserves P (if c then a else b) := by
  split
  · exact ha
  · exact hb

theorem preserves_each {items : List β} {act : β → Action α σ Unit}
    (h : ∀ b ∈ items, Preserves P (act b)) : Preserves P (each items act) := by
  induction items with
  | nil => exact preserves_pure ()
  | cons b rest ih =>
    refine preserves_bind (h b List.mem_cons_self) fun _ => ?_
    exact ih fun b hb => h b (List.mem_cons_of_mem _ hb)

/-- An action on a part of the state preserves what its effects on the part do not break. What they
are can depend on the state before. -/
theorem preserves_on_of {V : σ → σ' → Prop} {part : σ → σ'} {replace : σ → σ' → σ}
    {a : Action α σ' β} (hpart : ∀ s, P s → V s (part s)) (ha : ∀ s, P s → Preserves (V s) a)
    (hreplace : ∀ s p, P s → V s p → P (replace s p)) : Preserves P (on part replace a) := by
  intro s hs
  have h := ha s hs _ (hpart s hs)
  unfold on
  generalize a (part s) = u at h ⊢
  cases u with
  | ok b p => exact hreplace s p hs h
  | error fault p => exact hreplace s p hs h

theorem preserves_on {V : σ' → Prop} {part : σ → σ'} {replace : σ → σ' → σ}
    {a : Action α σ' β} (hpart : ∀ s, P s → V (part s)) (ha : Preserves V a)
    (hreplace : ∀ s p, P s → V p → P (replace s p)) : Preserves P (on part replace a) :=
  preserves_on_of (V := fun _ => V) hpart (fun _ _ => ha) hreplace

end Preserves

/-- Actions that do not fail from states that meet `P`, and that end with an answer and a state that
meet `Q`. -/
def Yields (P : σ → Prop) (a : Action α σ β) (Q : β → σ → Prop) : Prop :=
  ∀ s, P s → ∃ b t, a s = .ok b t ∧ Q b t

section Yields

variable {P : σ → Prop} {Q : β → σ → Prop} {U : γ → σ → Prop}

theorem yields_pure {b : β} (h : ∀ s, P s → Q b s) : Yields P (pure b : Action α σ β) Q :=
  fun s hs => ⟨b, s, rfl, h s hs⟩

theorem yields_of {V : σ → Prop} {a : Action α σ β} (hV : ∀ s, P s → V s) (ha : Yields V a Q) :
    Yields P a Q :=
  fun s hs => ha s (hV s hs)

/-- A computation without a state that has an answer. -/
theorem yields_lift {answer : Except (Fault α) β} {b : β} {f : β → Action α σ γ}
    (hb : answer = .ok b) (hf : Yields P (f b) U) : Yields P (lift answer >>= f) U := by
  rw [hb]
  exact hf

theorem yields_modify {f : σ → σ} {Q : PUnit → σ → Prop} (h : ∀ s, P s → Q () (f s)) :
    Yields P (modify f : Action α σ PUnit) Q :=
  fun s hs => ⟨(), f s, rfl, h s hs⟩

theorem yields_bind {a : Action α σ β} {f : β → Action α σ γ} (ha : Yields P a Q)
    (hf : ∀ b, Yields (Q b) (f b) U) : Yields P (a >>= f) U := by
  intro s hs
  obtain ⟨b, t, hrun, hb⟩ := ha s hs
  obtain ⟨c, u, hnext, hc⟩ := hf b t hb
  exact ⟨c, u, (run_bind hrun).trans hnext, hc⟩

/-- After the state is read it is known. -/
theorem yields_get {f : σ → Action α σ γ} (hf : ∀ s, P s → Yields (· = s) (f s) U) :
    Yields P (get >>= f) U :=
  fun s hs => hf s hs s rfl

theorem yields_ite {c : Prop} [Decidable c] {a b : Action α σ β} (ha : c → Yields P a Q)
    (hb : ¬ c → Yields P b Q) : Yields P (if c then a else b) Q := by
  by_cases h : c
  · rw [if_pos h]
    exact ha h
  · rw [if_neg h]
    exact hb h

theorem yields_on {part : σ → σ'} {replace : σ → σ' → σ} {a : Action α σ' β} {P' : σ' → Prop}
    {Q' : β → σ' → Prop} (hpart : ∀ s, P s → P' (part s)) (ha : Yields P' a Q')
    (hreplace : ∀ s b p, P s → Q' b p → Q b (replace s p)) :
    Yields P (on part replace a) Q := by
  intro s hs
  obtain ⟨b, p, hrun, hb⟩ := ha _ (hpart s hs)
  refine ⟨b, replace s p, ?_, hreplace s b p hs hb⟩
  unfold on
  rw [hrun]

/-- What each round of a loop leaves as it was holds at the end. -/
theorem yields_each {items : List β} {act : β → Action α σ Unit}
    (h : ∀ b ∈ items, Yields P (act b) fun _ => P) : Yields P (each items act) fun _ => P := by
  induction items with
  | nil => exact yields_pure fun _ hs => hs
  | cons b rest ih =>
    refine yields_bind (h b List.mem_cons_self) fun _ => ?_
    exact ih fun b hb => h b (List.mem_cons_of_mem _ hb)

end Yields

/-! ## Two runs -/

/-- Two ends that correspond: answers related by `Q`, or one and the same fault, and states related
by `R`. -/
inductive Alike (R : σ → τ → Prop) (Q : β → γ → Prop) :
    EStateM.Result (Fault α) σ β → EStateM.Result (Fault α) τ γ → Prop where
  | ok {x y s t} : Q x y → R s t → Alike R Q (.ok x s) (.ok y t)
  | error {fault s t} : R s t → Alike R Q (.error fault s) (.error fault t)

/-- Actions that end alike from related states. -/
def Related (R : σ → τ → Prop) (Q : β → γ → Prop) (a : Action α σ β) (b : Action α τ γ) : Prop :=
  ∀ s t, R s t → Alike R Q (a s) (b t)

/-! ### Answers and faults -/

theorem related_pure {x : β} {y : γ} (h : Q x y) :
    Related R Q (pure x : Action α σ β) (pure y : Action α τ γ) :=
  fun _ _ hst => .ok h hst

theorem related_throw (fault : Fault α) :
    Related R Q (throw fault : Action α σ β) (throw fault : Action α τ γ) :=
  fun _ _ hst => .error hst

/-- A computation without a state gives both runs the same. -/
theorem related_lift (answer : Except (Fault α) β) :
    Related R Eq (lift answer : Action α σ β) (lift answer : Action α τ β) := by
  cases answer with
  | ok b => exact related_pure rfl
  | error fault => exact related_throw fault

/-- A computation that has an answer in one of the runs only. -/
theorem related_lift_left {answer : Except (Fault α) δ} {d : δ} {f : δ → Action α σ β}
    {b : Action α τ γ} (hd : answer = .ok d) (hf : Related R Q (f d) b) :
    Related R Q (lift answer >>= f) b := by
  rw [hd]
  exact hf

/-! ### The state -/

theorem related_get : Related R R (get : Action α σ σ) (get : Action α τ τ) :=
  fun _ _ hst => .ok hst hst

theorem related_modify {f : σ → σ} {g : τ → τ} (h : ∀ s t, R s t → R (f s) (g t)) :
    Related R Eq (modify f : Action α σ PUnit) (modify g : Action α τ PUnit) :=
  fun s t hst => .ok rfl (h s t hst)

theorem related_modifyGet {f : σ → β × σ} {g : τ → γ × τ}
    (h : ∀ s t, R s t → Q (f s).1 (g t).1 ∧ R (f s).2 (g t).2) :
    Related R Q (modifyGet f : Action α σ β) (modifyGet g : Action α τ γ) :=
  fun s t hst => .ok (h s t hst).1 (h s t hst).2

/-- Actions on parts of the states are related when they are related on the parts. -/
theorem related_on {part : σ → σ'} {part' : τ → τ'} {replace : σ → σ' → σ}
    {replace' : τ → τ' → τ} {a : Action α σ' β} {b : Action α τ' γ}
    (hpart : ∀ s t, R s t → P (part s) (part' t)) (hab : Related P Q a b)
    (hreplace : ∀ s t p q, R s t → P p q → R (replace s p) (replace' t q)) :
    Related R Q (on part replace a) (on part' replace' b) := by
  intro s t hst
  have h := hab _ _ (hpart s t hst)
  unfold on
  generalize a (part s) = u at h ⊢
  generalize b (part' t) = v at h ⊢
  cases h with
  | ok hxy hpq => exact .ok hxy (hreplace s t _ _ hst hpq)
  | error hpq => exact .error (hreplace s t _ _ hst hpq)

/-! ### One after the other -/

theorem related_bind {a : Action α σ β} {b : Action α τ γ} {Q' : δ → ε → Prop}
    {f : β → Action α σ δ} {g : γ → Action α τ ε} (hab : Related R Q a b)
    (hfg : ∀ x y, Q x y → Related R Q' (f x) (g y)) : Related R Q' (a >>= f) (b >>= g) := by
  intro s t hst
  have h := hab s t hst
  show Alike R Q' (EStateM.bind a f s) (EStateM.bind b g t)
  unfold EStateM.bind
  generalize a s = u at h ⊢
  generalize b t = v at h ⊢
  cases h with
  | ok hxy hst' => exact hfg _ _ hxy _ _ hst'
  | error hst' => exact .error hst'

/-- Actions that go on alike after answers that are equal. -/
theorem related_seq {a : Action α σ β} {b : Action α τ β} {Q' : δ → ε → Prop}
    {f : β → Action α σ δ} {g : β → Action α τ ε} (hab : Related R Eq a b)
    (hfg : ∀ x, Related R Q' (f x) (g x)) : Related R Q' (a >>= f) (b >>= g) :=
  related_bind hab fun x _ hxy => hxy ▸ hfg x

theorem related_ite {c c' : Prop} [Decidable c] [Decidable c'] {a a' : Action α σ β}
    {b b' : Action α τ γ} (hc : c ↔ c') (ha : c → Related R Q a b) (hb : ¬ c → Related R Q a' b') :
    Related R Q (if c then a else a') (if c' then b else b') := by
  by_cases h : c
  · rw [if_pos h, if_pos (hc.mp h)]
    exact ha h
  · rw [if_neg h, if_neg (fun h' => h (hc.mpr h'))]
    exact hb h

/-- Something that is only done at times, in front of what both runs do next. -/
theorem related_when {c : Prop} [Decidable c] {a : Action α σ Unit} {b : Action α τ Unit}
    {k : Unit → Action α σ β} {k' : Unit → Action α τ γ} (hab : c → Related R Eq a b)
    (hk : Related R Q (k ()) (k' ())) :
    Related R Q (if c then a >>= k else k ()) (if c then b >>= k' else k' ()) :=
  related_ite Iff.rfl (fun hc => related_seq (hab hc) fun _ => hk) fun _ => hk

theorem related_each {items : List β} {act : β → Action α σ Unit} {act' : β → Action α τ Unit}
    (h : ∀ b ∈ items, Related R Eq (act b) (act' b)) :
    Related R Eq (each items act) (each items act') := by
  induction items with
  | nil => exact related_pure rfl
  | cons b rest ih =>
    refine related_seq (h b List.mem_cons_self) fun _ => ?_
    exact ih fun b hb => h b (List.mem_cons_of_mem _ hb)

/-- An action is related to itself by equality. -/
theorem related_refl (a : Action α σ β) : Related Eq Eq a a := by
  rintro s _ rfl
  cases a s with
  | ok => exact .ok rfl rfl
  | error => exact .error rfl

/-! ### The same state -/

/-- Equal states with a property. -/
def Same (V : σ → Prop) (s t : σ) : Prop := s = t ∧ V s

section Same

variable {V : σ → Prop}

/-- An action is related to itself on states with a property that it preserves. -/
theorem related_of_preserves {a : Action α σ β} (ha : Preserves V a) :
    Related (Same V) Eq a a := by
  rintro s _ ⟨rfl, hs⟩
  have hend := ha s hs
  generalize a s = u at hend ⊢
  cases u with
  | ok => exact .ok rfl ⟨rfl, hend⟩
  | error => exact .error ⟨rfl, hend⟩

/-- After the state is read it is known to both. -/
theorem related_get_bind {f g : σ → Action α σ β} {Q : β → β → Prop}
    (hfg : ∀ s, V s → Related (Same V) Q (f s) (g s)) :
    Related (Same V) Q (get >>= f) (get >>= g) := by
  rintro s _ ⟨rfl, hs⟩
  exact hfg s hs s s ⟨rfl, hs⟩

/-- Actions that are related on equal states with a property do the same there. -/
theorem Related.eq_of {a b : Action α σ β} (h : Related (Same V) Eq a b) {s : σ} (hs : V s) :
    a s = b s := by
  have hends := h s s ⟨rfl, hs⟩
  generalize a s = u at hends ⊢
  generalize b s = v at hends ⊢
  cases hends with
  | ok hxy hst => rw [hxy, hst.1]
  | error hst => rw [hst.1]

end Same

end ArmRover.Action
