import ToolchainChoice.Proofs.Decision.Classification
import ToolchainChoice.Proofs.Installation.Banner
import ToolchainChoice.Proofs.Version.Precedence
import ToolchainChoice.Proofs.Version.Preorder

/-!
# The place of a version as the version grows

Versions are compared by all of their parts, and placed below, within or above a range by two numbers
alone. Between versions of one epoch the two never disagree: a version that is not higher has no higher
first two numbers, and so it has no higher place, whatever the range is. The versions that are
installed have no epoch, so this is how any two of them relate. It is not so with different epochs:
1!1.5 is above 1.21, and its first two numbers are lower.
-/
namespace ToolchainChoice.Decision

open Version (MajorMinor majorMinorOf compareTexts read)

variable {range : SupportedRange} {a b : String} {v w : Version} {m n : MajorMinor}

/-! ## The first two numbers -/

/-- A version that is not higher than another of its epoch has no higher first two numbers. -/
theorem majorMinor_le_of_compare (he : v.epoch = w.epoch) (h : compare v w ≠ .gt) :
    v.majorMinor ≤ w.majorMinor := by
  by_cases hlt : w.majorMinor < v.majorMinor
  · have hgt : compare v w = .gt := by
      rw [Std.OrientedOrd.eq_swap, Version.compare_of_majorMinor_lt he.symm hlt]
      rfl
    exact absurd hgt h
  · exact MajorMinor.not_lt.mp hlt

/-! ## The place -/

namespace State

/-- The states of the versions that can be found, lowest first. -/
def ascending : List State := [.below, .within, .above]

/-- Both are states of versions that can be found, and the first is not above the second. -/
def NotAbove (s t : State) : Prop :=
  s ∈ ascending ∧ t ∈ ascending ∧ ascending.idxOf s ≤ ascending.idxOf t

theorem mem_ascending {s : State} (h : s ≠ .absent) : s ∈ ascending := by
  cases s with
  | absent => contradiction
  | below | within | above => decide

/-- Higher first two numbers have no lower place. -/
theorem notAbove_ofMajorMinor (range : SupportedRange) (h : m ≤ n) :
    NotAbove (ofMajorMinor range m) (ofMajorMinor range n) := by
  refine ⟨mem_ascending ofMajorMinor_ne_absent, mem_ascending ofMajorMinor_ne_absent, ?_⟩
  -- the place of the higher numbers bounds that of the lower ones, so it is looked at first
  cases hn : ofMajorMinor range n with
  | absent => exact absurd hn ofMajorMinor_ne_absent
  | above =>
    cases hm : ofMajorMinor range m with
    | absent => exact absurd hm ofMajorMinor_ne_absent
    | below | within | above => decide
  | within =>
    have hnot : ofMajorMinor range m ≠ .above := by
      intro hm
      have hupper := MajorMinor.lt_of_lt_of_le (ofMajorMinor_eq_above_iff.mp hm) h
      exact MajorMinor.not_lt.mpr (ofMajorMinor_eq_within_iff.mp hn).2 hupper
    cases hm : ofMajorMinor range m with
    | absent => exact absurd hm ofMajorMinor_ne_absent
    | above => exact absurd hm hnot
    | below | within => decide
  | below =>
    have hlower : m < range.lower := by
      have hn' := ofMajorMinor_eq_below_iff.mp hn
      rw [MajorMinor.le_def] at h
      rw [MajorMinor.lt_def] at hn' ⊢
      omega
    have hm : ofMajorMinor range m = .below := ofMajorMinor_eq_below_iff.mpr hlower
    exact Nat.le_of_eq (congrArg ascending.idxOf hm)

end State

/-! ## The versions that are installed -/

/-- The form of what a banner yields has no room for an epoch. -/
theorem exists_read_of_detect {machine : Installation.Machine} {executable : Symbols}
    {found : Installation.Installed}
    (h : (Installation.detect machine executable).result = .ok (some found)) :
    ∃ v, read found.version = .ok v ∧ v.epoch = 0 := by
  obtain ⟨output, houtput⟩ := Installation.exists_banner_of_detect h
  obtain ⟨v, hv⟩ := Version.isValid_eq_true_iff.mp (Installation.isUsable_of_detect h found rfl)
  have hmark := (Installation.hasReleaseForm_of_banner? houtput).mark_notMem
  exact ⟨v, hv, Version.epoch_eq_zero_of_read hv hmark⟩

/-! ## Both orders -/

/-- **The two orders.** Of two versions with one epoch, whatever else they have, the first is compared
with the second: if it is not higher then neither are its first two numbers, and its place is not higher
than that of the second with respect to any range; and if its first two numbers are lower then so is
it. Versions that are found installed have the epoch zero. -/
theorem orders_agree_within_epoch (hv : read a = .ok v) (hw : read b = .ok w)
    (he : v.epoch = w.epoch) :
    (∃ m n order, majorMinorOf a = .ok m ∧ majorMinorOf b = .ok n ∧ compareTexts a b = .ok order ∧
      (order ≠ .gt → m ≤ n) ∧ (m < n → order = .lt) ∧
      (order ≠ .gt → ∀ range, ∃ s t, State.classify range (.seen a) = .ok s ∧
        State.classify range (.seen b) = .ok t ∧ s.NotAbove t)) ∧
    ∀ machine executable found,
      (Installation.detect machine executable).result = .ok (some found) →
        ∃ u, read found.version = .ok u ∧ u.epoch = 0 := by
  refine ⟨⟨v.majorMinor, w.majorMinor, compare v w, ?_, ?_, ?_, ?_, ?_, ?_⟩, ?_⟩
  · exact Version.majorMinorOf_eq_ok_iff.mpr ⟨v, hv, rfl⟩
  · exact Version.majorMinorOf_eq_ok_iff.mpr ⟨w, hw, rfl⟩
  · exact Version.compareTexts_of_read hv hw
  · exact majorMinor_le_of_compare he
  · exact Version.compare_of_majorMinor_lt he
  · intro hle range
    have hnumbers := majorMinor_le_of_compare he hle
    exact ⟨_, _, State.classify_of_read rfl hv, State.classify_of_read rfl hw,
      State.notAbove_ofMajorMinor range hnumbers⟩
  · intro machine executable found h
    exact exists_read_of_detect h

/-- 1.21.0 is below 1.22rc1, which is found installed; the one is within the standard range and the
other above it. -/
theorem orders_agree_up_to_1_22rc1 :
    read "1.21.0" = .ok { epoch := 0, major := 1, more := [21, 0] } ∧
      read "1.22rc1" = .ok { epoch := 0, major := 1, more := [22], pre := some (.candidate, 1) } ∧
      (Installation.detect Installation.candidateMachine "go").result =
        .ok (some ⟨"1.22rc1", .ofText "/usr/bin/go"⟩) ∧
      compareTexts "1.21.0" "1.22rc1" = .ok .lt ∧ (⟨1, 21⟩ : MajorMinor) ≤ ⟨1, 22⟩ ∧
      State.NotAbove .within .above ∧
      ∃ u, read "1.22rc1" = .ok u ∧ u.epoch = 0 := by
  have hv : read "1.21.0" = .ok { epoch := 0, major := 1, more := [21, 0] } := rfl
  have hw : read "1.22rc1" =
      .ok { epoch := 0, major := 1, more := [22], pre := some (.candidate, 1) } := rfl
  have hfound : (Installation.detect Installation.candidateMachine "go").result =
      .ok (some ⟨"1.22rc1", .ofText "/usr/bin/go"⟩) := by
    have hbanner : Installation.banner? "go version go1.22rc1 linux/amd64\n" = some "1.22rc1" := by
      decide +kernel
    show (Installation.ofOutput _ "go version go1.22rc1 linux/amd64\n").result = _
    rw [Installation.ofOutput, hbanner]
    rfl
  obtain ⟨⟨m, n, order, hm, hn, horder, hle, -, hplaces⟩, hinstalled⟩ :=
    orders_agree_within_epoch hv hw rfl
  obtain rfl : m = ⟨1, 21⟩ := except_ok_unique hm rfl
  obtain rfl : n = ⟨1, 22⟩ := except_ok_unique hn rfl
  obtain rfl : order = .lt := except_ok_unique horder rfl
  obtain ⟨s, t, hs, ht, hplace⟩ := hplaces (by decide) .standard
  obtain rfl : s = .within := except_ok_unique hs rfl
  obtain rfl : t = .above := except_ok_unique ht rfl
  exact ⟨hv, hw, hfound, horder, hle (by decide), hplace, hinstalled _ _ _ hfound⟩

end ToolchainChoice.Decision
