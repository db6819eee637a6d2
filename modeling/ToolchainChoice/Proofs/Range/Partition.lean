import ToolchainChoice.Proofs.Decision.Classification

/-!
# How a range divides the versions

A version lies below a range, in it or above it, and in one of these places only. That the bounds of a
range are in order is all that this takes, and every range carries the proof of it. The place depends on
the first two numbers of a release alone, so what a range contains has no gaps. Nothing is said about
texts that are no version.
-/
namespace ToolchainChoice

namespace Decision.State

variable {s : State}

theorem count_places (h : s ≠ .absent) :
    [decide (s = .below), decide (s = .within), decide (s = .above)].count true = 1 := by
  cases s with
  | absent => exact absurd rfl h
  | below | within | above => rfl

theorem eq_of_places (h : s ≠ .absent) :
    s = if decide (s = .below) then .below else if decide (s = .within) then .within else .above := by
  cases s with
  | absent => exact absurd rfl h
  | below | within | above => rfl

end Decision.State

namespace SupportedRange

open Decision (State)
open Version (MajorMinor)

variable {r : SupportedRange} {text : String} {v : Version} {b a : Bool}

/-! ## The answers about a version -/

theorem below_of_read (h : Version.read text = .ok v) :
    r.below text = .ok (decide (State.ofMajorMinor r v.majorMinor = .below)) := by
  rw [below_eq_map, Version.map_majorMinorOf_of_read h]
  exact congrArg Except.ok (decide_eq_decide.mpr State.ofMajorMinor_eq_below_iff.symm)

theorem contains_of_read (h : Version.read text = .ok v) :
    r.contains text = .ok (decide (State.ofMajorMinor r v.majorMinor = .within)) := by
  rw [contains_eq_map, Version.map_majorMinorOf_of_read h]
  exact congrArg Except.ok (decide_eq_decide.mpr State.ofMajorMinor_eq_within_iff.symm)

theorem above_of_read (h : Version.read text = .ok v) :
    r.above text = .ok (decide (State.ofMajorMinor r v.majorMinor = .above)) := by
  rw [above_eq_map, Version.map_majorMinorOf_of_read h]
  exact congrArg Except.ok (decide_eq_decide.mpr State.ofMajorMinor_eq_above_iff.symm)

theorem outside_of_answers (hb : r.below text = .ok b) (ha : r.above text = .ok a) :
    r.outside text = .ok (b || a) := by
  unfold outside
  rw [hb]
  -- a version below the range is not asked about again
  cases b with
  | true => rfl
  | false => exact ha

/-! ## No gaps -/

/-- What lies between two versions that a range contains, by the first two numbers, it contains too. -/
theorem contains_of_between {low high : String} {l m u : MajorMinor}
    (hl : Version.majorMinorOf low = .ok l) (hm : Version.majorMinorOf text = .ok m)
    (hu : Version.majorMinorOf high = .ok u) (hlm : l ≤ m) (hmu : m ≤ u)
    (hlow : r.contains low = .ok true) (hhigh : r.contains high = .ok true) :
    r.contains text = .ok true := by
  rw [contains_eq_map, hl] at hlow
  rw [contains_eq_map, hu] at hhigh
  obtain ⟨hlower, -⟩ := of_decide_eq_true (Except.ok.inj hlow)
  obtain ⟨-, hupper⟩ := of_decide_eq_true (Except.ok.inj hhigh)
  have hwithin : r.lower ≤ m ∧ m ≤ r.upper :=
    ⟨MajorMinor.le_trans hlower hlm, MajorMinor.le_trans hmu hupper⟩
  rw [contains_eq_map, hm]
  exact congrArg Except.ok (decide_eq_true hwithin)

/-- **Partition.** Of a version exactly one is true: it is below the range, in it or above it; outside
means below or above, and the state of the version says which it is. Asked of the version, the questions
have the same answers, those of the standard range where none is named. A range contains its bounds, and
with two versions every version between them. -/
theorem divides_versions (r : SupportedRange) (h : Version.isValid text = .ok true) :
    (∃ below within above,
      r.below text = .ok below ∧ r.contains text = .ok within ∧ r.above text = .ok above ∧
      [below, within, above].count true = 1 ∧
      r.outside text = .ok (below || above) ∧
      State.classify r (.seen text) =
        .ok (if below then .below else if within then .within else .above)) ∧
    (Version.isBelow text r = r.below text ∧ Version.isAbove text r = r.above text ∧
      Version.isOutside text r = r.outside text) ∧
    (Version.isBelow text = standard.below text ∧ Version.isAbove text = standard.above text ∧
      Version.isOutside text = standard.outside text) ∧
    (r.contains r.min = .ok true ∧ r.contains r.max = .ok true) ∧
    ∀ low high l m u, Version.majorMinorOf low = .ok l → Version.majorMinorOf text = .ok m →
      Version.majorMinorOf high = .ok u → l ≤ m → m ≤ u →
      r.contains low = .ok true → r.contains high = .ok true → r.contains text = .ok true := by
  obtain ⟨v, hv⟩ := Version.isValid_eq_true_iff.mp h
  have hplace : State.ofMajorMinor r v.majorMinor ≠ .absent := State.ofMajorMinor_ne_absent
  have hstate : State.classify r (.seen text) = .ok (State.ofMajorMinor r v.majorMinor) :=
    State.classify_of_read rfl hv
  have hbelow := below_of_read (r := r) hv
  have habove := above_of_read (r := r) hv
  refine ⟨⟨_, _, _, hbelow, contains_of_read hv, habove, State.count_places hplace,
    outside_of_answers hbelow habove, ?_⟩, ⟨rfl, rfl, rfl⟩, ⟨rfl, rfl, rfl⟩,
    ⟨r.contains_min, r.contains_max⟩, fun _ _ _ _ _ => contains_of_between⟩
  rw [hstate]
  exact congrArg Except.ok (State.eq_of_places hplace)

/-- A late patch of 1.21 is not above 1.21: it lies between a candidate for 1.21 and 1.21 itself, and the
standard range contains both of these. -/
theorem standard_divides_1_21_9 :
    Version.isValid "1.21.9" = .ok true ∧
      standard.contains "go1.21rc2" = .ok true ∧ standard.contains "1.21" = .ok true ∧
      standard.contains "1.21.9" = .ok true ∧ standard.below "1.21.9" = .ok false ∧
      standard.above "1.21.9" = .ok false ∧ Version.isOutside "1.21.9" = .ok false ∧
      State.classify standard (.seen "1.21.9") = .ok .within := by
  have hvalid : Version.isValid "1.21.9" = .ok true := rfl
  have hlow : standard.contains "go1.21rc2" = .ok true := rfl
  have hhigh : standard.contains "1.21" = .ok true := rfl
  obtain ⟨⟨below, within, above, hbelow, hwithin, habove, hone, houtside, hstate⟩, -,
    ⟨-, -, hstandard⟩, -, hbetween⟩ := divides_versions standard hvalid
  have hcontains : standard.contains "1.21.9" = .ok true :=
    hbetween "go1.21rc2" "1.21" ⟨1, 21⟩ ⟨1, 21⟩ ⟨1, 21⟩ rfl rfl rfl (MajorMinor.le_refl _)
      (MajorMinor.le_refl _) hlow hhigh
  obtain rfl : true = within := Except.ok.inj (hcontains.symm.trans hwithin)
  cases below with
  | true => cases above <;> contradiction
  | false =>
    cases above with
    | true => contradiction
    | false =>
      exact ⟨hvalid, hlow, hhigh, hcontains, hbelow, habove, hstandard.trans houtside, hstate⟩

end SupportedRange

end ToolchainChoice
