import ToolchainChoice.Version.Order

/-!
# The first two numbers in the order of versions

A range looks at the first two numbers of a release and at nothing else, while versions are ordered
by all of their parts. Between versions of one epoch the first two numbers come first: where they
differ they decide, whatever pre-releases, zeros at the end of a release or local parts there are.
The epoch outweighs them, so between versions of different epochs they say nothing.
-/
namespace ToolchainChoice.Version

variable {a b : Version}

/-! ## Releases without the zeros at their end -/

theorem trimZeros_zero_cons {ns : List Nat} (h : trimZeros ns = []) : trimZeros (0 :: ns) = [] := by
  simp [trimZeros, h]

theorem trimZeros_cons {n : Nat} {ns : List Nat} (h : ¬ (n = 0 ∧ trimZeros ns = [])) :
    trimZeros (n :: ns) = n :: trimZeros ns := by
  rw [trimZeros]
  cases ht : trimZeros ns with
  | nil =>
    have hn : n ≠ 0 := fun hn => h ⟨hn, ht⟩
    exact if_neg hn
  | cons m ms => rfl

/-- A release that has ended goes on with zeros. -/
theorem trimZeros_eq_cons (ns : List Nat) : trimZeros ns = trimZeros (ns.headD 0 :: ns.tail) := by
  cases ns <;> rfl

/-- What is not all zeros stands above what is. -/
theorem compare_then_compare_nil {n : Nat} {ns : List Nat} (h : ¬ (n = 0 ∧ ns = [])) :
    (compare n 0).then (compare ns []) = .gt := by
  rw [Ordering.then_eq_gt, Nat.compare_eq_gt, Nat.compare_eq_eq]
  by_cases hn : n = 0
  · cases ns with
    | nil => exact absurd ⟨hn, rfl⟩ h
    | cons m ms => exact .inr ⟨hn, List.compare_cons_nil⟩
  · exact .inl (Nat.pos_of_ne_zero hn)

/-- Releases compare number by number. -/
theorem compare_trimZeros_cons (m n : Nat) (ms ns : List Nat) :
    compare (trimZeros (m :: ms)) (trimZeros (n :: ns)) =
      (compare m n).then (compare (trimZeros ms) (trimZeros ns)) := by
  by_cases hm : m = 0 ∧ trimZeros ms = []
  · obtain ⟨rfl, hms⟩ := hm
    by_cases hn : n = 0 ∧ trimZeros ns = []
    · obtain ⟨rfl, hns⟩ := hn
      rw [trimZeros_zero_cons hms, trimZeros_zero_cons hns, hms, hns]
      rfl
    · rw [trimZeros_zero_cons hms, trimZeros_cons hn, hms, List.compare_nil_cons]
      have hgt := compare_then_compare_nil hn
      rw [← Ordering.swap_inj, Ordering.swap_then, ← Std.OrientedOrd.eq_swap,
        ← Std.OrientedOrd.eq_swap, hgt]
      rfl
  · by_cases hn : n = 0 ∧ trimZeros ns = []
    · obtain ⟨rfl, hns⟩ := hn
      rw [trimZeros_cons hm, trimZeros_zero_cons hns, hns, List.compare_cons_nil,
        compare_then_compare_nil hm]
    · rw [trimZeros_cons hm, trimZeros_cons hn, List.compare_cons_cons]

/-! ## From the heaviest part on -/

/-- The epoch comes first, then the first two numbers of the release. -/
theorem compare_eq_then (a b : Version) :
    ∃ rest, compare a b = (compare a.epoch b.epoch).then
      ((compare a.majorMinor.major b.majorMinor.major).then
        ((compare a.majorMinor.minor b.majorMinor.minor).then rest)) := by
  refine ⟨(compare (trimZeros a.more.tail) (trimZeros b.more.tail)).then
    (compareLex (compareOn Key.pre) (compareLex (compareOn Key.post)
      (compareLex (compareOn Key.dev) (compareOn Key.locals))) a.key b.key), ?_⟩
  have hrelease : compare a.key.release b.key.release =
      (compare a.majorMinor.major b.majorMinor.major).then
        ((compare a.majorMinor.minor b.majorMinor.minor).then
          (compare (trimZeros a.more.tail) (trimZeros b.more.tail))) := by
    change compare (trimZeros (a.major :: a.more)) (trimZeros (b.major :: b.more)) = _
    rw [compare_trimZeros_cons, trimZeros_eq_cons a.more, trimZeros_eq_cons b.more,
      compare_trimZeros_cons]
    rfl
  change (compare a.epoch b.epoch).then ((compare a.key.release b.key.release).then _) = _
  rw [hrelease, Ordering.then_assoc, Ordering.then_assoc]

theorem compare_of_epoch_lt (h : a.epoch < b.epoch) : compare a b = .lt := by
  obtain ⟨rest, hcompare⟩ := compare_eq_then a b
  rw [hcompare, Nat.compare_eq_lt.mpr h]
  rfl

/-- Between versions of one epoch, lower first numbers make the lower version. -/
theorem compare_of_majorMinor_lt (he : a.epoch = b.epoch) (h : a.majorMinor < b.majorMinor) :
    compare a b = .lt := by
  obtain ⟨rest, hcompare⟩ := compare_eq_then a b
  rw [hcompare, Nat.compare_eq_eq.mpr he, Ordering.eq_then]
  rcases MajorMinor.lt_def.mp h with hmajor | ⟨hmajor, hminor⟩
  · rw [Nat.compare_eq_lt.mpr hmajor]
    rfl
  · rw [Nat.compare_eq_eq.mpr hmajor, Nat.compare_eq_lt.mpr hminor]
    rfl

/-- A version with the lower first numbers is the lower one exactly if its epoch is not above that
of the other. -/
theorem compare_eq_lt_iff_of_majorMinor_lt (h : a.majorMinor < b.majorMinor) :
    compare a b = .lt ↔ a.epoch ≤ b.epoch := by
  constructor
  · intro hlt
    refine Nat.le_of_not_lt fun hepoch => ?_
    have hgt : compare b a = .lt := compare_of_epoch_lt hepoch
    rw [Std.OrientedOrd.eq_swap, hlt] at hgt
    contradiction
  · intro hle
    rcases Nat.lt_or_eq_of_le hle with hlt | he
    · exact compare_of_epoch_lt hlt
    · exact compare_of_majorMinor_lt he h

end ToolchainChoice.Version
