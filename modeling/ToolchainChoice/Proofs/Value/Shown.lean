import ToolchainChoice.Proofs.Results
import ToolchainChoice.Value.Shown

/-!
# Values that cannot be shown

A value cannot be shown in a message if an integer in it has too many digits, or if its collections are
nested too deeply, and for no other reason.
-/
namespace ToolchainChoice

variable {store : Store} {e : Failure} {v : Value}

/-- The failures to show a value. -/
inductive IsShowingFailure : Failure → Prop
  | numberTooLong : IsShowingFailure .numberTooLong
  | tooDeep : IsShowingFailure .tooDeep

theorem Value.shownScalar_eq_error (h : v.shownScalar = .error e) : IsShowingFailure e := by
  cases v with
  | int n =>
    simp only [shownScalar] at h
    split at h
    · contradiction
    · obtain rfl := Except.error.inj h
      exact .numberTooLong
  | bool b => cases b <;> contradiction
  | _ => contradiction

/-- Items that are shown with something around them. -/
theorem mapM_shown_eq_error {α : Type} {shown : α → Except Failure (List Char)} {items : List α}
    {around : List (List Char) → List Char}
    (h : (do return around (← items.mapM shown)) = Except.error e) : ∃ a ∈ items, shown a = .error e := by
  rcases except_bind_eq_error_iff.mp h with hitems | ⟨texts, -, h⟩
  · exact except_mapM_eq_error hitems
  · contradiction

/-- An entry that is shown by its key and its value. -/
theorem entry_shown_eq_error {shown : Value → Except Failure (List Char)} {entry : Value × Value}
    {joined : List Char → List Char → List Char}
    (h : (do return joined (← shown entry.1) (← shown entry.2)) = Except.error e) :
    ∃ v, shown v = .error e := by
  rcases except_bind_eq_error_iff.mp h with hkey | ⟨key, -, h⟩
  · exact ⟨entry.1, hkey⟩
  · rcases except_bind_eq_error_iff.mp h with hvalue | ⟨value, -, h⟩
    · exact ⟨entry.2, hvalue⟩
    · contradiction

/-- A collection cannot be shown if a value in it cannot be. -/
theorem Collection.shownBy_eq_error {shown : Value → Except Failure (List Char)} {c : Collection}
    (h : c.shownBy shown = .error e) : ∃ v, shown v = .error e := by
  cases c with
  | list items =>
    obtain ⟨v, -, hv⟩ := mapM_shown_eq_error h
    exact ⟨v, hv⟩
  | pairs entries =>
    obtain ⟨entry, -, hentry⟩ := mapM_shown_eq_error h
    exact entry_shown_eq_error hentry
  | set items =>
    cases items with
    | nil => contradiction
    | cons item items =>
      obtain ⟨v, -, hv⟩ := mapM_shown_eq_error h
      exact ⟨v, hv⟩
  | map entries =>
    obtain ⟨entry, -, hentry⟩ := mapM_shown_eq_error h
    exact entry_shown_eq_error hentry

namespace Store

theorem shown_eq_error {levels : Nat} {around : List Ref} (h : store.shown levels around v = .error e) :
    IsShowingFailure e := by
  induction levels generalizing around v with
  | zero =>
    cases v with
    | collection r =>
      unfold shown at h
      cases hr : store.get? r with
      | none =>
        rw [hr] at h
        contradiction
      | some c =>
        rw [hr] at h
        obtain rfl := Except.error.inj h
        exact .tooDeep
    | _ => exact Value.shownScalar_eq_error h
  | succ levels ih =>
    cases v with
    | collection r =>
      unfold shown at h
      cases hr : store.get? r with
      | none =>
        rw [hr] at h
        contradiction
      | some c =>
        rw [hr] at h
        dsimp only at h
        split at h
        · contradiction
        · obtain ⟨v, hv⟩ := Collection.shownBy_eq_error h
          exact ih hv
    | _ => exact Value.shownScalar_eq_error h

theorem shownText_eq_error (h : store.shownText v = .error e) : IsShowingFailure e :=
  shown_eq_error (except_map_eq_error_iff.mp h)

theorem plainText_eq_error (h : store.plainText v = .error e) : IsShowingFailure e := by
  unfold plainText at h
  split at h
  · contradiction
  · contradiction
  · split at h
    · contradiction
    · exact shownText_eq_error (except_map_eq_error_iff.mp h)

end Store

end ToolchainChoice
