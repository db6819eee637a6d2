/-!
# Results of steps in sequence

When a sequence of steps that can fail has a result, and which. These equivalences take a run apart
at its first step; the failure of a later step is never confused with that of an earlier one.
-/
namespace ToolchainChoice

variable {ε α β : Type} {x : Except ε α} {e : ε} {b : β}

theorem except_ok_unique {a a' : α} (h : x = .ok a) (h' : x = .ok a') : a = a' :=
  Except.ok.inj (h.symm.trans h')

theorem except_bind_eq_ok_iff {f : α → Except ε β} :
    x >>= f = .ok b ↔ ∃ a, x = .ok a ∧ f a = .ok b := by
  cases x <;> simp [bind, Except.bind]

theorem except_bind_eq_error_iff {f : α → Except ε β} :
    x >>= f = .error e ↔ x = .error e ∨ ∃ a, x = .ok a ∧ f a = .error e := by
  cases x <;> simp [bind, Except.bind]

theorem except_mapM_eq_error {f : α → Except ε β} {items : List α} (h : items.mapM f = .error e) :
    ∃ a ∈ items, f a = .error e := by
  induction items with
  | nil => contradiction
  | cons a items ih =>
    rw [List.mapM_cons] at h
    rcases except_bind_eq_error_iff.mp h with ha | ⟨b, -, h⟩
    · exact ⟨a, List.mem_cons_self, ha⟩
    · rcases except_bind_eq_error_iff.mp h with hitems | ⟨bs, -, h⟩
      · obtain ⟨a', hmem, ha'⟩ := ih hitems
        exact ⟨a', List.mem_cons_of_mem a hmem, ha'⟩
      · contradiction

theorem except_map_eq_ok_iff {f : α → β} : x.map f = .ok b ↔ ∃ a, x = .ok a ∧ f a = b := by
  cases x <;> simp [Except.map]

theorem except_map_eq_error_iff {f : α → β} : x.map f = .error e ↔ x = .error e := by
  cases x <;> simp [Except.map]

end ToolchainChoice
