import ArmRover.Proofs.Program.Printing

/-!
# The two orders

The commands of a text come kind by kind or in the order of their calls. Both lists hold the same
commands: calls of different kinds never start at the same place, since a text starts with calls of
one kind only, so that the places alone put the commands into one order. The commands of one kind
are in this order in both lists.

* `pairwise_start_found` — the places of the calls of a text.
* `pairwise_inTextOrder` — sorting, `filter_eq_of_perm` — commands of one kind.
* `two_orders` — the commands of a text.
-/

namespace ArmRover.Program

/-! ### Places -/

/-- No two calls of a text start at the same place, and those of one kind are found from left to
right. -/
theorem pairwise_start_found (cs : List Char) :
    (found cs).Pairwise fun f g =>
      f.start ≠ g.start ∧ (f.call.kind = g.call.kind → f.start < g.start) := by
  have hkinds : Call.Kind.all.Pairwise (· ≠ ·) := by decide
  apply List.pairwise_flatMap.mpr
  constructor
  · intro k _
    have hplaces := List.pairwise_map.mp (pairwise_places_scan k 0 cs)
    exact hplaces.imp fun hlt => ⟨Nat.ne_of_lt hlt, fun _ => hlt⟩
  · refine hkinds.imp fun hne f hf g hg => ?_
    have hkind : f.call.kind ≠ g.call.kind := by
      rw [kind_of_mem_scan hf, kind_of_mem_scan hg]
      exact hne
    refine ⟨fun hstart => ?_, fun heq => absurd heq hkind⟩
    have hfirst := (reads_of_mem_scan _ 0 cs f hf [] rfl).2
    have hsecond := (reads_of_mem_scan _ 0 cs g hg [] rfl).2
    rw [hstart] at hfirst
    exact hkind (kind_eq_of_recognise hfirst hsecond)

/-! ### Sorting -/

section Sorting

variable {α : Type} {emitted ordered : List (Found × Command α)}

/-- Commands whose calls start at different places are sorted into the order of the places. -/
theorem pairwise_inTextOrder (h : emitted.Pairwise fun d e => d.1.start ≠ e.1.start) :
    (inTextOrder emitted).Pairwise fun d e => d.1.start < e.1.start := by
  have hdifferent : (inTextOrder emitted).Pairwise fun d e => d.1.start ≠ e.1.start :=
    h.perm (perm_inTextOrder emitted).symm Ne.symm
  exact (sorted_inTextOrder emitted).imp₂ (fun _ _ => Nat.lt_of_le_of_ne) hdifferent

/-- Two lists of the same commands have the same commands of one kind, if both have those in the
order of their places. -/
theorem filter_eq_of_perm (hperm : ordered.Perm emitted)
    (hordered : ordered.Pairwise fun d e => d.1.start < e.1.start)
    (hemitted : emitted.Pairwise fun d e => d.1.call.kind = e.1.call.kind → d.1.start < e.1.start)
    (k : Call.Kind) :
    (ordered.filter fun e => e.1.call.kind = k) = emitted.filter fun e => e.1.call.kind = k := by
  have hsame : ((emitted.filter fun e => e.1.call.kind = k)).Pairwise
      fun d e => d.1.start < e.1.start := by
    refine (hemitted.filter _).imp_of_mem fun hd he hlt => hlt ?_
    simp only [List.mem_filter, decide_eq_true_eq] at hd he
    exact hd.2.trans he.2.symm
  apply List.Perm.eq_of_pairwise _ (hordered.filter _) hsame (hperm.filter _)
  intro d e _ _ hlt hgt
  exact absurd hgt (Nat.lt_asymm hlt)

end Sorting

/-! ### The commands of a text -/

variable {α : Type} [Scalar α]

/-- The commands of one kind are those whose calls are of this kind. -/
theorem filter_map_snd {commands : List (Found × Command α)}
    (h : ∀ e ∈ commands, e.1.call.meaning = some e.2) (k : Call.Kind) :
    (commands.map Prod.snd).filter (fun command => kindOf? command = some k) =
      (commands.filter fun e => e.1.call.kind = k).map Prod.snd := by
  rw [List.filter_map]
  congr 1
  refine List.filter_congr fun e he => ?_
  simp [kindOf?_of_meaning (h e he)]

/-- A text that can be read in one order can be read in both. In the order of the text the commands
are the same as kind by kind, sorted by the places at which their calls are recognised, and no two
of these places are equal. Both lists have the same commands of each kind, in the same order. -/
theorem two_orders {textOrder : Bool} {text : List Char} {commands : List (Command α)}
    (h : commands? textOrder text = .ok commands) :
    ∃ grouped ordered : List (Found × Command α),
      emitted? (found (withoutComments text)) = .ok grouped ∧
        commands? false text = .ok (grouped.map Prod.snd) ∧
        commands? true text = .ok (ordered.map Prod.snd) ∧
        (∀ e ∈ grouped, e.1.Reads (withoutComments text) ∧ e.1.call.meaning = some e.2) ∧
        ordered.Perm grouped ∧ ordered.Pairwise (fun d e => d.1.start < e.1.start) ∧
        ∀ k, (ordered.map Prod.snd).filter (fun command => kindOf? command = some k) =
          (grouped.map Prod.snd).filter fun command => kindOf? command = some k := by
  obtain ⟨grouped, hgrouped, -⟩ := Action.bind_eq_ok.mp h
  obtain rfl := eq_of_emitted? hgrouped
  have hmem : ∀ e : Found × Command α, e ∈ meanings (found (withoutComments text)) ↔
      e.1 ∈ found (withoutComments text) ∧ e.1.call.meaning = some e.2 := mem_meanings_iff
  have hplaces := pairwise_meanings (α := α) (pairwise_start_found (withoutComments text))
  generalize (meanings (found (withoutComments text)) : List (Found × Command α)) = grouped
    at hgrouped hmem hplaces
  have hperm := perm_inTextOrder grouped
  have hordered := pairwise_inTextOrder (hplaces.imp And.left)
  have hmeaning : ∀ e ∈ grouped, e.1.call.meaning = some e.2 := fun e he => ((hmem e).mp he).2
  refine ⟨grouped, inTextOrder grouped, hgrouped, ?_, ?_, ?_, hperm, hordered, ?_⟩
  · simp only [commands?, bind, Except.bind, hgrouped]
    rfl
  · simp only [commands?, bind, Except.bind, hgrouped]
    rfl
  · intro e he
    exact ⟨reads_of_mem_found ((hmem e).mp he).1, hmeaning e he⟩
  · intro k
    rw [filter_map_snd hmeaning, filter_map_snd fun e he => hmeaning e (hperm.mem_iff.mp he),
      filter_eq_of_perm hperm hordered (hplaces.imp And.right)]

/-- A text with two calls of one kind, one of another kind between them, and one of no joint. -/
theorem two_orders_interleaved :
    let text := "robot.getDistance();robot.move(1,0);robot.moveJoint(7,1);robot.move(0,1)".toList
    ∃ commands : List (Command Float), commands? true text = .ok commands ∧
      ∃ grouped ordered : List (Found × Command Float),
        emitted? (found (withoutComments text)) = .ok grouped ∧
          commands? false text = .ok (grouped.map Prod.snd) ∧
          commands? true text = .ok (ordered.map Prod.snd) ∧
          (∀ e ∈ grouped, e.1.Reads (withoutComments text) ∧ e.1.call.meaning = some e.2) ∧
          ordered.Perm grouped ∧ ordered.Pairwise (fun d e => d.1.start < e.1.start) ∧
          ∀ k, (ordered.map Prod.snd).filter (fun command => kindOf? command = some k) =
            (grouped.map Prod.snd).filter fun command => kindOf? command = some k := by
  intro text
  obtain ⟨commands, hcommands⟩ : ∃ commands : List (Command Float),
      commands? false text = .ok commands := exists_commands? (by decide)
  obtain ⟨emitted, hemitted, -⟩ := Action.bind_eq_ok.mp hcommands
  obtain ⟨ordered, -, hordered⟩ := exists_perm_emitted hemitted true
  exact ⟨_, hordered, two_orders hordered⟩

end ArmRover.Program
